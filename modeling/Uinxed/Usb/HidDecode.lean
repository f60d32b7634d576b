/-
  Usb/HidDecode.lean --- the input report decoder of the USB HID class
  driver (hid_extract_bits, hid_field_value, hid_emit, hid_decode_array,
  hid_decode_variable, usb_hid_keyboard_keycode, hid_consumer_keycode and
  usb_hid_decode_report, src/drivers/usb/class/hid/hid_parser.c).

  The report is data[0..length), a memory seen from data.  Every field of
  the report's ID is read element by element, each element LSB-first from
  its bit offset; a variable field turns each element into an event, and an
  array field on the keyboard page compares the usages of this report with
  those of the previous one.  hid_emit drops an event with no type, a key
  event with no code, and any event once the buffer is full.

  What holds of every report: at most event_capacity events
  (length_usbHidDecodeReport_le), and nothing read outside data[0..length)
  (usbHidDecodeReport_congr).  The array decoder works per slot,
  not per usage: a usage that stands in two slots is pressed and released
  twice, and a usage with no key code is pressed and released with no event
  at all (hid_keyboard_array_events_per_slot).
-/
import Uinxed.Usb.HidParse

set_option autoImplicit false

namespace Uinxed.Hid

/-! ## Constants -/

def emsgsize : Int := 90

def evKey : Nat := 0x01
def evRel : Nat := 0x02
def evAbs : Nat := 0x03
def btnLeft : Nat := 0x110

def hidUsagePageGenericDesktop : Nat := 0x01
def hidUsagePageKeyboard : Nat := 0x07
def hidUsagePageButton : Nat := 0x09
def hidUsagePageConsumer : Nat := 0x0c

/-- The entries of keycodes[256] that are set: keyboard usage, KEY_* code. -/
def keyboardKeycodes : List (Nat × Nat) :=
  [(0x4, 30), (0x5, 48), (0x6, 46), (0x7, 32), (0x8, 18), (0x9, 33), (0xa, 34), (0xb, 35),
   (0xc, 23), (0xd, 36), (0xe, 37), (0xf, 38), (0x10, 50), (0x11, 49), (0x12, 24), (0x13, 25),
   (0x14, 16), (0x15, 19), (0x16, 31), (0x17, 20), (0x18, 22), (0x19, 47), (0x1a, 17), (0x1b, 45),
   (0x1c, 21), (0x1d, 44), (0x1e, 2), (0x1f, 3), (0x20, 4), (0x21, 5), (0x22, 6), (0x23, 7),
   (0x24, 8), (0x25, 9), (0x26, 10), (0x27, 11), (0x28, 28), (0x29, 1), (0x2a, 14), (0x2b, 15),
   (0x2c, 57), (0x2d, 12), (0x2e, 13), (0x2f, 26), (0x30, 27), (0x31, 43), (0x32, 86), (0x33, 39),
   (0x34, 40), (0x35, 41), (0x36, 51), (0x37, 52), (0x38, 53), (0x39, 58), (0x3a, 59), (0x3b, 60),
   (0x3c, 61), (0x3d, 62), (0x3e, 63), (0x3f, 64), (0x40, 65), (0x41, 66), (0x42, 67), (0x43, 68),
   (0x44, 87), (0x45, 88), (0x46, 99), (0x47, 70), (0x48, 119), (0x49, 110), (0x4a, 102), (0x4b, 104),
   (0x4c, 111), (0x4d, 107), (0x4e, 109), (0x4f, 106), (0x50, 105), (0x51, 108), (0x52, 103), (0x53, 69),
   (0x54, 98), (0x55, 55), (0x56, 74), (0x57, 78), (0x58, 96), (0x59, 79), (0x5a, 80), (0x5b, 81),
   (0x5c, 75), (0x5d, 76), (0x5e, 77), (0x5f, 71), (0x60, 72), (0x61, 73), (0x62, 82), (0x63, 83),
   (0x64, 86), (0x65, 127), (0x66, 116), (0x67, 117), (0x68, 183), (0x69, 184), (0x6a, 185), (0x6b, 186),
   (0x6c, 187), (0x6d, 188), (0x6e, 189), (0x6f, 190), (0x70, 191), (0x71, 192), (0x72, 193), (0x73, 194),
   (0x75, 138), (0x76, 139), (0x7a, 131), (0x7b, 137), (0x7c, 133), (0x7d, 135), (0x7e, 136), (0x7f, 113),
   (0x80, 115), (0x81, 114), (0x87, 89), (0x88, 93), (0x89, 124), (0x8a, 92), (0x8b, 94), (0x90, 122),
   (0x91, 123), (0xe0, 29), (0xe1, 42), (0xe2, 56), (0xe3, 125), (0xe4, 97), (0xe5, 54), (0xe6, 100),
   (0xe7, 126)]

/-- The cases of hid_consumer_keycode: consumer usage, KEY_* code. -/
def consumerKeycodes : List (Nat × Nat) :=
  [(0x30, 116), (0xb0, 207), (0xb1, 201), (0xb5, 163), (0xb6, 165), (0xb7, 166), (0xcd, 164), (0xe2, 113),
   (0xe9, 115), (0xea, 114), (0x183, 171), (0x18a, 155), (0x192, 140), (0x194, 144), (0x221, 217), (0x223, 172),
   (0x224, 158), (0x225, 159), (0x227, 173), (0x22a, 156)]

/-- usb_hid_keyboard_keycode(usage). -/
def usbHidKeyboardKeycode (usage : Nat) : Nat := if usage < 256 then (keyboardKeycodes.lookup usage).getD 0 else 0

/-- hid_consumer_keycode(usage). -/
def hidConsumerKeycode (usage : Nat) : Nat := (consumerKeycodes.lookup usage).getD 0

/-- The REL_* and ABS_* code of a generic desktop usage (the two tables
agree). -/
def genericDesktopCode (usage : Nat) : Nat :=
  if usage = 0x30 then 0x00 else if usage = 0x31 then 0x01 else if usage = 0x32 then 0x02
  else if usage = 0x33 then 0x03 else if usage = 0x34 then 0x04 else if usage = 0x35 then 0x05
  else if usage = 0x38 then 0x08 else 0

/-! ## Reading a report -/

/-- The loop of hid_extract_bits from bit on, with left bits to go: bit
b of the value is bit (off + b) of the data, and the loop stops at the
end of the data. -/
def hidExtractLoop (data : Nat → UInt8) (length off : Nat) : Nat → Nat → Nat → Nat
  | _, 0, value => value
  | bit, left + 1, value =>
    if (off + bit) / 8 ≥ length then value
    else
      hidExtractLoop data length off (bit + 1) left
        (if (data ((off + bit) / 8)).toNat.testBit ((off + bit) % 8) then value ||| 2 ^ bit else value)

/-- hid_extract_bits(data, length, bit_offset, bit_size). -/
def hidExtractBits (data : Nat → UInt8) (length bitOffset bitSize : Nat) : Nat :=
  hidExtractLoop data length bitOffset 0 bitSize 0

/-- hid_field_value(field, value): sign-extended when the logical range is
signed. -/
def hidFieldValue (field : HidField) (value : Nat) : Int :=
  if field.logicalMinimum ≥ 0 ∨ field.reportSize = 32 ∨ field.reportSize = 0 then toInt32 value
  else if value &&& 2 ^ (field.reportSize - 1) ≠ 0 then toInt32 ((value ||| (0xffffffff <<< field.reportSize)) % 2 ^ 32)
  else toInt32 value

/-- An event of usb_hid_event_t. -/
structure HidEvent where
  application : Nat
  type : Nat
  code : Nat
  value : Int
  deriving DecidableEq, Repr

/-- hid_emit: the event appended, unless it has no type, is a key event
with no code, or the buffer is full. -/
def hidEmit (capacity : Nat) (events : List HidEvent) (application type code : Nat) (value : Int) : List HidEvent :=
  if type = 0 ∨ (type = evKey ∧ code = 0) ∨ events.length ≥ capacity then events
  else events ++ [⟨application, type, code, value⟩]

/-! ## Fields -/

/-- hid_field_usage(field, index). -/
def hidFieldUsage (field : HidField) (index : Nat) : Nat :=
  if index < field.usages.length then (field.usages.getD index (0, 0)).1
  else if field.usageMaximum ≥ field.usageMinimum ∧ field.usageMinimum + index ≤ field.usageMaximum then
    field.usageMinimum + index
  else (field.usages.getLast?.map Prod.fst).getD 0

/-- hid_field_usage_page(field, index). -/
def hidFieldUsagePage (field : HidField) (index : Nat) : Nat :=
  if index < field.usages.length then (field.usages.getD index (0, 0)).2
  else if field.usageMinimumPage = field.usageMaximumPage then field.usageMinimumPage
  else field.usagePage

/-- The type, code and value hid_decode_variable gives an element, before
the previous-state test. -/
def hidVariableEvent (field : HidField) (index : Nat) (value : Int) : Nat × Nat × Int :=
  if hidFieldUsagePage field index = hidUsagePageKeyboard then
    (evKey, usbHidKeyboardKeycode (hidFieldUsage field index), if value ≠ 0 then 1 else 0)
  else if hidFieldUsagePage field index = hidUsagePageButton then
    (evKey, if hidFieldUsage field index ≠ 0 ∧ hidFieldUsage field index ≤ 8 then btnLeft + hidFieldUsage field index - 1
      else 0, if value ≠ 0 then 1 else 0)
  else if hidFieldUsagePage field index = hidUsagePageConsumer then
    (evKey, hidConsumerKeycode (hidFieldUsage field index), if value ≠ 0 then 1 else 0)
  else if hidFieldUsagePage field index = hidUsagePageGenericDesktop then
    (if field.flags &&& usbHidMainRelative ≠ 0 then evRel else evAbs, genericDesktopCode (hidFieldUsage field index), value)
  else (0, 0, value)

/-- hid_decode_variable(field, index, value, events, capacity, count): a key
event only when the element changed, remembered in previous[index]; no
relative event for a zero move. -/
def hidDecodeVariable (capacity : Nat) (field : HidField) (index : Nat) (value : Int) (events : List HidEvent) :
    HidField × List HidEvent :=
  match hidVariableEvent field index value with
  | (type, code, value) =>
    if type = evKey then
      if field.previous.getD index 0 = (value % 2 ^ 32).toNat then (field, events)
      else ({ field with previous := field.previous.set index (value % 2 ^ 32).toNat },
        hidEmit capacity events field.application type code value)
    else if field.flags &&& usbHidMainRelative ≠ 0 ∧ value = 0 then (field, events)
    else (field, hidEmit capacity events field.application type code value)

/-- The two loops of hid_decode_array: a release for each previous usage
above 3 that is not among the values, then a press for each value above 3
that was not among the previous usages. -/
def hidArrayEvents (capacity application : Nat) (previous values : List Nat) (events : List HidEvent) :
    List HidEvent :=
  values.foldl
    (fun events usage =>
      if usage > 3 ∧ usage ∉ previous then hidEmit capacity events application evKey (usbHidKeyboardKeycode (usage % 2 ^ 16)) 1
      else events)
    (previous.foldl
      (fun events usage =>
        if usage > 3 ∧ usage ∉ values then hidEmit capacity events application evKey (usbHidKeyboardKeycode (usage % 2 ^ 16)) 0
        else events)
      events)

/-- hid_decode_array(field, values, value_count, events, capacity, count). -/
def hidDecodeArray (capacity : Nat) (field : HidField) (values : List Nat) (events : List HidEvent) :
    HidField × List HidEvent :=
  if field.usagePage ≠ hidUsagePageKeyboard then (field, events)
  else
    ({ field with previousCount := values.length % 2 ^ 8, previous := values ++ field.previous.drop values.length },
      hidArrayEvents capacity field.application (field.previous.take field.previousCount) values events)

/-- The loop over the elements of a field from index on, left to go: the
raw values so far, and each element of a variable field decoded at once. -/
def hidDecodeElements (capacity : Nat) (data : Nat → UInt8) (length : Nat) :
    HidField → Nat → Nat → List Nat → List HidEvent → HidField × List Nat × List HidEvent
  | field, _, 0, values, events => (field, values, events)
  | field, index, left + 1, values, events =>
    if field.flags &&& usbHidMainVariable ≠ 0 then
      match hidDecodeVariable capacity field index
          (hidFieldValue field (hidExtractBits data length ((field.bitOffset + index * field.reportSize) % 2 ^ 16)
            field.reportSize)) events with
      | (field', events') =>
        hidDecodeElements capacity data length field' (index + 1) left
          (values ++ [hidExtractBits data length ((field.bitOffset + index * field.reportSize) % 2 ^ 16) field.reportSize])
          events'
    else
      hidDecodeElements capacity data length field (index + 1) left
        (values ++ [hidExtractBits data length ((field.bitOffset + index * field.reportSize) % 2 ^ 16) field.reportSize])
        events

/-- One field of the loop of usb_hid_decode_report. -/
def hidDecodeField (capacity : Nat) (data : Nat → UInt8) (length reportId : Nat) (field : HidField)
    (events : List HidEvent) : HidField × List HidEvent :=
  if field.reportId ≠ reportId then (field, events)
  else
    match hidDecodeElements capacity data length field 0 field.reportCount [] events with
    | (field', values, events') =>
      if field.flags &&& usbHidMainVariable = 0 then hidDecodeArray capacity field' values events' else (field', events')

/-- The loop of usb_hid_decode_report over the fields. -/
def hidDecodeFields (capacity : Nat) (data : Nat → UInt8) (length reportId : Nat) :
    List HidField → List HidEvent → List HidField × List HidEvent
  | [], events => ([], events)
  | field :: fields, events =>
    match hidDecodeField capacity data length reportId field events with
    | (field', events') =>
      match hidDecodeFields capacity data length reportId fields events' with
      | (fields', events'') => (field' :: fields', events'')

/-- usb_hid_decode_report past the report ID: the report with the fields'
previous state, and the events. -/
def hidDecodeFrom (report : HidReport) (reportId : Nat) (data : Nat → UInt8) (length capacity : Nat) :
    Except Int (HidReport × List HidEvent) :=
  if report.reportBits reportId > length * 8 then .error (-emsgsize)
  else
    match hidDecodeFields capacity data length reportId report.fields [] with
    | (fields, events) => .ok ({ report with fields := fields }, events)

/-- usb_hid_decode_report(report, data, length, events, event_capacity): a
numbered report starts with its ID. -/
def usbHidDecodeReport (report : HidReport) (data : Nat → UInt8) (length capacity : Nat) :
    Except Int (HidReport × List HidEvent) :=
  if report.numberedReports then
    if length = 0 then .error (-einval)
    else if data 0 = 0 then .error (-einval)
    else hidDecodeFrom report (data 0).toNat (fun i => data (i + 1)) (length - 1) capacity
  else hidDecodeFrom report 0 data length capacity

/-! ## At most event_capacity events -/

section Capacity

variable {capacity : Nat}

/-- A step that keeps the buffer within capacity keeps it so over a loop. -/
theorem length_foldl_le {α : Type} {f : List HidEvent → α → List HidEvent}
    (hf : ∀ events a, events.length ≤ capacity → (f events a).length ≤ capacity) :
    ∀ (xs : List α) (events : List HidEvent), events.length ≤ capacity → (xs.foldl f events).length ≤ capacity
  | [], _, h => h
  | x :: xs, events, h => length_foldl_le hf xs (f events x) (hf events x h)

theorem length_hidEmit_le {events : List HidEvent} (h : events.length ≤ capacity) (application type code : Nat)
    (value : Int) : (hidEmit capacity events application type code value).length ≤ capacity := by
  unfold hidEmit
  split
  · exact h
  · next hroom =>
    rw [List.length_append, List.length_singleton]
    omega

theorem length_ite_emit_le {c : Prop} [Decidable c] {events : List HidEvent} (h : events.length ≤ capacity)
    (application type code : Nat) (value : Int) :
    (if c then hidEmit capacity events application type code value else events).length ≤ capacity := by
  split
  · exact length_hidEmit_le h _ _ _ _
  · exact h

theorem length_hidDecodeArray_le {events : List HidEvent} (h : events.length ≤ capacity) (field : HidField)
    (values : List Nat) : (hidDecodeArray capacity field values events).2.length ≤ capacity := by
  unfold hidDecodeArray hidArrayEvents
  split
  · exact h
  · -- the presses come after the releases, each loop within capacity
    exact length_foldl_le (fun _ _ he => length_ite_emit_le he _ _ _ _) _ _
      (length_foldl_le (fun _ _ he => length_ite_emit_le he _ _ _ _) _ _ h)

theorem length_hidDecodeVariable_le {events : List HidEvent} (h : events.length ≤ capacity) (field : HidField)
    (index : Nat) (value : Int) : (hidDecodeVariable capacity field index value events).2.length ≤ capacity := by
  unfold hidDecodeVariable
  rcases hidVariableEvent field index value with ⟨type, code, value'⟩
  dsimp only
  split
  · split
    · exact h
    · exact length_hidEmit_le h _ _ _ _
  split
  · exact h
  · exact length_hidEmit_le h _ _ _ _

theorem length_hidDecodeElements_le (data : Nat → UInt8) (length : Nat) :
    ∀ field index left values (events : List HidEvent), events.length ≤ capacity →
      (hidDecodeElements capacity data length field index left values events).2.2.length ≤ capacity
  | _, _, 0, _, _, h => h
  | field, index, left + 1, values, events, h => by
    rw [hidDecodeElements]
    split
    · have h' := length_hidDecodeVariable_le h field index
        (hidFieldValue field (hidExtractBits data length ((field.bitOffset + index * field.reportSize) % 2 ^ 16)
          field.reportSize))
      rcases hv : hidDecodeVariable capacity field index
        (hidFieldValue field (hidExtractBits data length ((field.bitOffset + index * field.reportSize) % 2 ^ 16)
          field.reportSize)) events with ⟨field', events'⟩
      rw [hv] at h'
      exact length_hidDecodeElements_le data length field' _ left _ events' h'
    · exact length_hidDecodeElements_le data length field _ left _ events h

theorem length_hidDecodeFields_le (data : Nat → UInt8) (length reportId : Nat) :
    ∀ fields (events : List HidEvent), events.length ≤ capacity →
      (hidDecodeFields capacity data length reportId fields events).2.length ≤ capacity
  | [], _, h => h
  | field :: fields, events, h => by
    rw [hidDecodeFields]
    -- the field's own events first
    have h' : (hidDecodeField capacity data length reportId field events).2.length ≤ capacity := by
      unfold hidDecodeField
      split
      · exact h
      · have he := length_hidDecodeElements_le data length field 0 field.reportCount [] events h
        rcases hv : hidDecodeElements capacity data length field 0 field.reportCount [] events with
          ⟨field', values, events'⟩
        rw [hv] at he
        dsimp only at he ⊢
        split
        · exact length_hidDecodeArray_le he field' values
        · exact he
    rcases hv : hidDecodeField capacity data length reportId field events with ⟨field', events'⟩
    rw [hv] at h'
    exact length_hidDecodeFields_le data length reportId fields events' h'

end Capacity

/-- usb_hid_decode_report never returns more than event_capacity events. -/
theorem length_usbHidDecodeReport_le {report report' : HidReport} {data : Nat → UInt8} {length capacity : Nat}
    {events : List HidEvent} (h : usbHidDecodeReport report data length capacity = .ok (report', events)) :
    events.length ≤ capacity := by
  have hfrom : ∀ reportId (data : Nat → UInt8) length,
      hidDecodeFrom report reportId data length capacity = .ok (report', events) → events.length ≤ capacity := by
    intro reportId data length hd
    unfold hidDecodeFrom at hd
    split at hd
    · cases hd
    · have hl := length_hidDecodeFields_le data length reportId report.fields [] (Nat.zero_le capacity)
      rcases hdf : hidDecodeFields capacity data length reportId report.fields [] with ⟨fields, events'⟩
      rw [hdf] at hd hl
      cases hd
      exact hl
  unfold usbHidDecodeReport at h
  split at h
  · split at h
    · cases h
    split at h
    · cases h
    · exact hfrom _ _ _ h
  · exact hfrom _ _ _ h

/-- A report's bytes as memory. -/
def reportBytes (bytes : List UInt8) (i : Nat) : UInt8 := bytes.getD i 0

/-- A boot keyboard report with key 5 in two slots: the array decoder emits
two presses, within a capacity of 16. -/
theorem length_usbHidDecodeReport_le_boot_keyboard :
    ∃ report', usbHidDecodeReport bootKeyboardReport (reportBytes [0, 0, 5, 5, 0, 0, 0, 0]) 8 16 =
      .ok (report', [⟨0, evKey, 48, 1⟩, ⟨0, evKey, 48, 1⟩]) ∧ [(⟨0, evKey, 48, 1⟩ : HidEvent), ⟨0, evKey, 48, 1⟩].length ≤ 16 := by
  obtain ⟨report', h⟩ : ∃ report', usbHidDecodeReport bootKeyboardReport (reportBytes [0, 0, 5, 5, 0, 0, 0, 0]) 8 16 =
      .ok (report', [⟨0, evKey, 48, 1⟩, ⟨0, evKey, 48, 1⟩]) := ⟨_, rfl⟩
  exact ⟨report', h, length_usbHidDecodeReport_le h⟩

/-! ## Reading only the report -/

section Congr

variable {data data' : Nat → UInt8} {length : Nat}

theorem hidExtractLoop_congr (h : ∀ i < length, data i = data' i) (off : Nat) :
    ∀ bit left value, hidExtractLoop data length off bit left value = hidExtractLoop data' length off bit left value
  | _, 0, _ => rfl
  | bit, left + 1, value => by
    rw [hidExtractLoop, hidExtractLoop]
    split
    · rfl
    · next hin =>
      rw [h _ (Nat.lt_of_not_le hin)]
      exact hidExtractLoop_congr h off _ _ _

theorem hidExtractBits_congr (h : ∀ i < length, data i = data' i) (off size : Nat) :
    hidExtractBits data length off size = hidExtractBits data' length off size :=
  hidExtractLoop_congr h off 0 size 0

theorem hidDecodeElements_congr (h : ∀ i < length, data i = data' i) (capacity : Nat) :
    ∀ field index left values events, hidDecodeElements capacity data length field index left values events =
      hidDecodeElements capacity data' length field index left values events
  | _, _, 0, _, _ => rfl
  | field, index, left + 1, values, events => by
    rw [hidDecodeElements, hidDecodeElements, hidExtractBits_congr h]
    split
    · rcases hidDecodeVariable capacity field index
        (hidFieldValue field (hidExtractBits data' length ((field.bitOffset + index * field.reportSize) % 2 ^ 16)
          field.reportSize)) events with ⟨field', events'⟩
      exact hidDecodeElements_congr h capacity _ _ _ _ _
    · exact hidDecodeElements_congr h capacity _ _ _ _ _

theorem hidDecodeFields_congr (h : ∀ i < length, data i = data' i) (capacity reportId : Nat) :
    ∀ fields events, hidDecodeFields capacity data length reportId fields events =
      hidDecodeFields capacity data' length reportId fields events
  | [], _ => rfl
  | field :: fields, events => by
    rw [hidDecodeFields, hidDecodeFields, hidDecodeField, hidDecodeField, hidDecodeElements_congr h]
    rcases hidDecodeField capacity data' length reportId field events with ⟨field', events'⟩
    simp only [hidDecodeFields_congr h capacity reportId fields]

end Congr

/-- usb_hid_decode_report reads nothing outside data[0..length): two
memories that agree there decode alike. -/
theorem usbHidDecodeReport_congr {data data' : Nat → UInt8} {length : Nat} (h : ∀ i < length, data i = data' i)
    (report : HidReport) (capacity : Nat) :
    usbHidDecodeReport report data length capacity = usbHidDecodeReport report data' length capacity := by
  unfold usbHidDecodeReport hidDecodeFrom
  split
  · split
    · rfl
    · next hlen =>
      -- the report ID is data[0], and the rest is read from data + 1
      have h₀ : data 0 = data' 0 := h 0 (by omega)
      have h₁ : ∀ i < length - 1, data (i + 1) = data' (i + 1) := fun i hi => h (i + 1) (by omega)
      rw [h₀, hidDecodeFields_congr h₁]
  · rw [hidDecodeFields_congr h]

/-- Bytes past a boot keyboard report's eight do not change what it decodes
to. -/
theorem usbHidDecodeReport_congr_boot_keyboard :
    (∀ i < 8, reportBytes [0, 0, 5, 5, 0, 0, 0, 0] i = reportBytes [0, 0, 5, 5, 0, 0, 0, 0, 7, 7] i) ∧
      usbHidDecodeReport bootKeyboardReport (reportBytes [0, 0, 5, 5, 0, 0, 0, 0]) 8 16 =
        usbHidDecodeReport bootKeyboardReport (reportBytes [0, 0, 5, 5, 0, 0, 0, 0, 7, 7]) 8 16 := by
  have h : ∀ i < 8, reportBytes [0, 0, 5, 5, 0, 0, 0, 0] i = reportBytes [0, 0, 5, 5, 0, 0, 0, 0, 7, 7] i := by
    decide
  exact ⟨h, usbHidDecodeReport_congr h bootKeyboardReport 16⟩

/-! ## A keyboard array, slot by slot -/

theorem hid_keyboard_array_events_per_slot :
    ((usbHidParseReportDescriptor bootKeyboardDescriptor).toOption.bind fun report =>
      (usbHidDecodeReport report (reportBytes [0, 0, 5, 5, 0, 0, 0, 0]) 8 16).toOption.bind fun r =>
        (usbHidDecodeReport r.1 (reportBytes [0, 0, 0x74, 0, 0, 0, 0, 0]) 8 16).toOption.map fun r' => (r.2, r'.2)) =
      some ([⟨0, evKey, 48, 1⟩, ⟨0, evKey, 48, 1⟩], [⟨0, evKey, 48, 0⟩, ⟨0, evKey, 48, 0⟩]) := by
  decide +kernel

end Uinxed.Hid
