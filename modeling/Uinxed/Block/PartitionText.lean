/-
  Block/PartitionText.lean --- the texts partition.c makes for a partition:
  its PARTUUID (format_guid, partition_format_uuid) and the UTF-8 form of a
  GPT partition name (append_utf8, gpt_name_to_utf8).

  The kernel's snprintf writes "%0Nx" as the lowercase hexadecimal digits of
  its argument, zero-padded to N (wnumber with the small digits), and keeps
  size - 1 characters of its output before the NUL.  format_guid's format
  string has four, two, two, two and six "%02x" between its dashes; its
  sixteen arguments are guid[3], guid[2], guid[1], guid[0], guid[4], guid[4],
  guid[7], guid[6] and guid[8] to guid[15].  The canonical mixed-endian text
  of a GUID (canonicalGuidText) takes guid[5] where format_guid takes guid[4]
  a second time, so what format_guid writes parses back to the GUID with
  byte 5 replaced by byte 4 (parseGuidText_formatGuidText), and two GUIDs that
  differ only in byte 5 get one PARTUUID.

  gpt_name_to_utf8 walks the 36 UTF-16LE code units of a GPT name up to the
  first zero unit.  A high surrogate followed by a low one is one
  supplementary code point; any other surrogate is U+FFFD, and a high
  surrogate whose successor is not a low one leaves that successor to the next
  iteration (the ++i and i-- of the source).  append_utf8 writes the UTF-8
  bytes of a code point only when they leave room for the NUL, and 36 units
  make at most 108 bytes, so it never skips one: the name is the UTF-8
  encoding (String.utf8EncodeChar) of the units' decoding by the Unicode rules
  (utf16Decode), then a NUL (gptNameToUtf8_eq).
-/
import Uinxed.Block.Partition
import Uinxed.Lib.Utf8

set_option autoImplicit false

namespace Uinxed.Block

/-! ## snprintf -/

/-- "%0Nx": the lowercase hexadecimal digits of n, zero-padded to width. -/
def hexPad (width n : Nat) : List Char :=
  List.replicate (width - (Nat.toDigits 16 n).length) '0' ++ Nat.toDigits 16 n

/-- What snprintf(buffer, size, ...) leaves before its NUL: the formatted text
cut to size - 1 characters. -/
def snprintfText (size : Nat) (text : List Char) : List Char := text.take (size - 1)

/-- "%02x" for each argument of a list. -/
def hex02s (args : List Nat) : List Char := args.flatMap (hexPad 2)

/-- "%02x%02x%02x%02x-%02x%02x-%02x%02x-%02x%02x-%02x%02x%02x%02x%02x%02x" of
sixteen arguments: four, two, two, two and six of them between the dashes. -/
def guidFormat (args : List Nat) : List Char :=
  hex02s (args.take 4) ++ '-' :: (hex02s ((args.drop 4).take 2) ++ '-' :: (hex02s ((args.drop 6).take 2) ++
    '-' :: (hex02s ((args.drop 8).take 2) ++ '-' :: hex02s (args.drop 10))))

/-! ## format_guid and partition_format_uuid -/

def partitionUuidStringSize : Nat := 37

/-- The arguments of format_guid's snprintf, as indices into the GUID. -/
def formatGuidOrder : List Nat := [3, 2, 1, 0, 4, 4, 7, 6, 8, 9, 10, 11, 12, 13, 14, 15]

/-- The text format_guid formats. -/
def formatGuidText (guid : List UInt8) : List Char :=
  guidFormat (formatGuidOrder.map fun i => (guid.getD i 0).toNat)

/-- format_guid(guid, buffer, size): the text left in buffer, or the error. -/
def formatGuid (guid : List UInt8) (size : Nat) : Except Int (List Char) :=
  if size < partitionUuidStringSize then .error (-enospc) else .ok (snprintfText size (formatGuidText guid))

/-- partition_format_uuid(table, partition, buffer, size): the canonical GUID
text for GPT, "disk-signature-N" for MBR. -/
def partitionFormatUuid (table : PartitionTable) (partition : PartitionInfo) (size : Nat) : Except Int (List Char) :=
  if table.type = .gpt then formatGuid partition.uniqueGuid size
  else if table.type ≠ .mbr then .error (-einval)
  else if size < 12 then .error (-enospc)
  else .ok (snprintfText size (hexPad 8 table.mbrDiskSignature ++ '-' :: hexPad 2 partition.number))

/-! ## The canonical text of a GUID, and reading it back -/

/-- The byte order of the canonical text: the first three fields little-endian,
the last two as stored. -/
def guidTextOrder : List Nat := [3, 2, 1, 0, 5, 4, 7, 6, 8, 9, 10, 11, 12, 13, 14, 15]

/-- The canonical mixed-endian text of a GUID. -/
def canonicalGuidText (guid : List UInt8) : List Char :=
  guidFormat (guidTextOrder.map fun i => (guid.getD i 0).toNat)

/-- The value of a hexadecimal digit. -/
def hexValue (c : Char) : Option Nat :=
  if '0' ≤ c ∧ c ≤ '9' then some (c.toNat - '0'.toNat)
  else if 'a' ≤ c ∧ c ≤ 'f' then some (c.toNat - 'a'.toNat + 10)
  else if 'A' ≤ c ∧ c ≤ 'F' then some (c.toNat - 'A'.toNat + 10)
  else none

/-- Read n two-digit hexadecimal numbers off the front of a text. -/
def readHex02s : Nat → List Char → Option (List Nat × List Char)
  | 0, t => some ([], t)
  | n + 1, a :: b :: t => do
    let hi ← hexValue a
    let lo ← hexValue b
    let (rest, t) ← readHex02s n t
    pure ((16 * hi + lo) :: rest, t)
  | _ + 1, _ => none

/-- Read a dash off the front of a text. -/
def readDash : List Char → Option (List Char)
  | '-' :: t => some t
  | _ => none

@[simp] theorem readDash_dash (t : List Char) : readDash ('-' :: t) = some t := rfl

/-- Read the sixteen numbers of a text in guidFormat's layout. -/
def readGuidFormat (t : List Char) : Option (List Nat) := do
  let (a, t) ← readHex02s 4 t
  let t ← readDash t
  let (b, t) ← readHex02s 2 t
  let t ← readDash t
  let (c, t) ← readHex02s 2 t
  let t ← readDash t
  let (d, t) ← readHex02s 2 t
  let t ← readDash t
  let (e, t) ← readHex02s 6 t
  if t = [] then some (a ++ b ++ c ++ d ++ e) else none

/-- Parse a GUID text back into the GUID's bytes. -/
def parseGuidText (t : List Char) : Option (List UInt8) :=
  (readGuidFormat t).map fun args => guidTextOrder.map fun k => UInt8.ofNat (args.getD k 0)

/-! ## Hexadecimal digits -/

theorem hexPad_two {n : Nat} (hn : n < 256) : hexPad 2 n = [Nat.digitChar (n / 16), Nat.digitChar (n % 16)] := by
  unfold hexPad
  by_cases hlt : n < 16
  · rw [Nat.toDigits_of_lt_base hlt, Nat.div_eq_of_lt hlt, Nat.mod_eq_of_lt hlt]
    rfl
  · -- two digits: the quotient's and the remainder's
    have hsplit := @Nat.toDigits_append_toDigits 16 (n / 16) (n % 16) (by decide) (by omega) (Nat.mod_lt n (by decide))
    rw [Nat.div_add_mod, Nat.toDigits_of_lt_base (show n / 16 < 16 by omega),
      Nat.toDigits_of_lt_base (Nat.mod_lt n (by decide))] at hsplit
    rw [← hsplit]
    rfl

theorem hexValue_digitChar : ∀ d, d < 16 → hexValue (Nat.digitChar d) = some d := by decide

/-- Two digits of a byte read back as the byte. -/
theorem readHex02s_hex02s (rest : List Char) :
    ∀ (args : List Nat), (∀ a ∈ args, a < 256) → readHex02s args.length (hex02s args ++ rest) = some (args, rest)
  | [], _ => rfl
  | a :: args, h => by
    have ha := h a List.mem_cons_self
    have ih := readHex02s_hex02s rest args fun x hx => h x (List.mem_cons_of_mem a hx)
    have hcons : hex02s (a :: args) ++ rest =
        Nat.digitChar (a / 16) :: Nat.digitChar (a % 16) :: (hex02s args ++ rest) := by
      rw [hex02s, List.flatMap_cons, hexPad_two ha]
      rfl
    rw [hcons, List.length_cons, readHex02s, hexValue_digitChar _ (by omega),
      hexValue_digitChar _ (Nat.mod_lt a (by decide)), ih]
    simp [Nat.div_add_mod]

/-- readGuidFormat reads back the sixteen bytes guidFormat formats. -/
theorem readGuidFormat_guidFormat {args : List Nat} (hlen : args.length = 16) (h : ∀ a ∈ args, a < 256) :
    readGuidFormat (guidFormat args) = some args := by
  -- each group of the layout reads back as itself
  have hgroup : ∀ (g : List Nat) (k : Nat) (rest : List Char), g.Sublist args → g.length = k →
      readHex02s k (hex02s g ++ rest) = some (g, rest) := by
    intro g k rest hg hk
    subst hk
    exact readHex02s_hex02s rest g fun a ha => h a (hg.subset ha)
  have hdrop : ∀ n, (args.drop n).Sublist args := fun n => List.drop_sublist n args
  have hmid : ∀ n, ((args.drop n).take 2).Sublist args := fun n => (List.take_sublist 2 _).trans (hdrop n)
  -- the five groups make up the arguments
  have hstep : ∀ n m, m = n + 2 → (args.drop n).take 2 ++ args.drop m = args.drop n := by
    intro n m hm
    rw [hm, ← List.drop_drop, List.take_append_drop]
  have hparts : args.take 4 ++ (args.drop 4).take 2 ++ (args.drop 6).take 2 ++ (args.drop 8).take 2 ++ args.drop 10 =
      args := by
    simp only [List.append_assoc]
    rw [hstep 8 10 rfl, hstep 6 8 rfl, hstep 4 6 rfl, List.take_append_drop]
  unfold readGuidFormat guidFormat
  rw [hgroup _ 4 _ (List.take_sublist _ _) (by simp [hlen])]
  simp only [Option.bind_eq_bind, Option.bind_some, readDash_dash]
  rw [hgroup _ 2 _ (hmid 4) (by simp [hlen])]
  simp only [Option.bind_some, readDash_dash]
  rw [hgroup _ 2 _ (hmid 6) (by simp [hlen])]
  simp only [Option.bind_some, readDash_dash]
  rw [hgroup _ 2 _ (hmid 8) (by simp [hlen])]
  simp only [Option.bind_some, readDash_dash]
  rw [← List.append_nil (hex02s (args.drop 10)), hgroup _ 6 _ (hdrop 10) (by simp [hlen])]
  simp only [Option.bind_some, if_true, hparts]

/-- The bytes of a GUID taken in any order of indices are below 256. -/
theorem guidArgs_lt (order : List Nat) (guid : List UInt8) :
    ∀ a ∈ order.map (fun i => (guid.getD i 0).toNat), a < 256 := by
  intro a ha
  obtain ⟨i, -, rfl⟩ := List.mem_map.mp ha
  exact UInt8.toNat_lt _

/-- A text formatted from a GUID's bytes in an order of sixteen indices parses
to the GUID's bytes at those indices, in the canonical order. -/
theorem parseGuidText_guidFormat {order : List Nat} (horder : order.length = 16) (guid : List UInt8) :
    parseGuidText (guidFormat (order.map fun i => (guid.getD i 0).toNat)) =
      some (guidTextOrder.map fun k => guid.getD (order.getD k 0) 0) := by
  unfold parseGuidText
  rw [readGuidFormat_guidFormat (by simp [horder]) (guidArgs_lt order guid), Option.map_some]
  congr 1
  apply List.map_congr_left
  intro k hk
  have hk16 : k < order.length := by
    rw [horder]
    revert k
    decide
  rw [List.getD_eq_getElem _ _ (by simpa using hk16), List.getElem_map, UInt8.ofNat_toNat,
    List.getD_eq_getElem _ _ hk16]

/-- The canonical order undoes itself. -/
theorem guidTextOrder_getD : guidTextOrder.map (fun k => guidTextOrder.getD k 0) = List.range 16 := by decide

/-- format_guid's order after the canonical one: byte 4 in place of byte 5. -/
theorem formatGuidOrder_getD :
    guidTextOrder.map (fun k => formatGuidOrder.getD k 0) = (List.range 16).set 5 4 := by decide

theorem map_getD_getD (order : List Nat) (guid : List UInt8) :
    guidTextOrder.map (fun k => guid.getD (order.getD k 0) 0) =
      (guidTextOrder.map fun k => order.getD k 0).map fun i => guid.getD i 0 := by
  rw [List.map_map]
  rfl

theorem map_getD_range {l : List UInt8} : (List.range l.length).map (fun i => l.getD i 0) = l := by
  apply List.ext_getElem
  · simp
  · intro i h1 h2
    simp [List.getElem?_eq_getElem h2]

/-- The canonical text of a GUID parses back to the GUID. -/
theorem parseGuidText_canonicalGuidText {guid : List UInt8} (hlen : guid.length = 16) :
    parseGuidText (canonicalGuidText guid) = some guid := by
  rw [canonicalGuidText, parseGuidText_guidFormat (by rfl), map_getD_getD, guidTextOrder_getD, ← hlen,
    map_getD_range]

theorem canonicalGuidText_injective {g g' : List UInt8} (hg : g.length = 16) (hg' : g'.length = 16)
    (h : canonicalGuidText g = canonicalGuidText g') : g = g' := by
  have hp := parseGuidText_canonicalGuidText hg
  rw [h, parseGuidText_canonicalGuidText hg'] at hp
  exact (Option.some.inj hp).symm

/-- What format_guid writes parses back to the GUID with byte 5 replaced by
byte 4. -/
theorem parseGuidText_formatGuidText {guid : List UInt8} (hlen : guid.length = 16) :
    parseGuidText (formatGuidText guid) = some (guid.set 5 (guid.getD 4 0)) := by
  rw [formatGuidText, parseGuidText_guidFormat (by rfl), map_getD_getD, formatGuidOrder_getD, List.map_set, ← hlen,
    map_getD_range]

/-- A GUID of sixteen distinct bytes reads back with byte 5 (0x55) replaced by
byte 4 (0x44). -/
theorem parseGuidText_formatGuidText_distinct :
    ([0, 17, 34, 51, 68, 85, 102, 119, 136, 153, 170, 187, 204, 221, 238, 255] : List UInt8).length = 16 ∧
      parseGuidText (formatGuidText [0, 17, 34, 51, 68, 85, 102, 119, 136, 153, 170, 187, 204, 221, 238, 255]) =
        some [0, 17, 34, 51, 68, 68, 102, 119, 136, 153, 170, 187, 204, 221, 238, 255] :=
  ⟨rfl, parseGuidText_formatGuidText rfl⟩

/-- format_guid reads no byte 5: two GUIDs that agree elsewhere get one text. -/
theorem formatGuidText_eq_of_agree {g g' : List UInt8} (h : ∀ i, i ≠ 5 → g.getD i 0 = g'.getD i 0) :
    formatGuidText g = formatGuidText g' := by
  unfold formatGuidText
  congr 1
  apply List.map_congr_left
  intro i hi
  have hi5 : i ≠ 5 := by
    revert i
    decide
  rw [h i hi5]

/-- A GPT table holding one partition. -/
def gptTableOf (partition : PartitionInfo) : PartitionTable :=
  { PartitionTable.empty with type := .gpt, partitions := [partition] }

/-- Two GPT partitions whose unique GUIDs differ only in byte 5 get the same
PARTUUID, although the canonical texts of the two GUIDs differ. -/
theorem partition_format_uuid_ignores_byte_five {table : PartitionTable} (partition : PartitionInfo) {b : UInt8}
    (size : Nat) (hgpt : table.type = .gpt) (hlen : partition.uniqueGuid.length = 16)
    (hb : partition.uniqueGuid.getD 5 0 ≠ b) :
    partitionFormatUuid table { partition with uniqueGuid := partition.uniqueGuid.set 5 b } size =
        partitionFormatUuid table partition size ∧
      canonicalGuidText (partition.uniqueGuid.set 5 b) ≠ canonicalGuidText partition.uniqueGuid := by
  constructor
  · have hagree : ∀ i, i ≠ 5 → (partition.uniqueGuid.set 5 b).getD i 0 = partition.uniqueGuid.getD i 0 := by
      intro i hi
      rw [List.getD_eq_getElem?_getD, List.getElem?_set_ne (Ne.symm hi), ← List.getD_eq_getElem?_getD]
    rw [partitionFormatUuid, partitionFormatUuid, if_pos hgpt, if_pos hgpt, formatGuid, formatGuid,
      formatGuidText_eq_of_agree hagree]
  · intro h
    have hset := canonicalGuidText_injective (by rw [List.length_set, hlen]) hlen h
    apply hb
    rw [← hset, List.getD_eq_getElem?_getD, List.getElem?_set_self (by omega), Option.getD_some]

/-- The all-zero GUID and the one with byte 5 set to 1 both get the PARTUUID
00000000-0000-0000-0000-000000000000. -/
theorem partition_format_uuid_zero_guid_byte_five :
    (gptTableOf { PartitionInfo.zero with uniqueGuid := List.replicate 16 0 }).type = .gpt ∧
      (List.replicate 16 (0 : UInt8)).length = 16 ∧ (List.replicate 16 (0 : UInt8)).getD 5 0 ≠ 1 ∧
      (partitionFormatUuid (gptTableOf { PartitionInfo.zero with uniqueGuid := List.replicate 16 0 })
          { PartitionInfo.zero with uniqueGuid := (List.replicate 16 0).set 5 1 } 37 =
        partitionFormatUuid (gptTableOf { PartitionInfo.zero with uniqueGuid := List.replicate 16 0 })
          { PartitionInfo.zero with uniqueGuid := List.replicate 16 0 } 37 ∧
      canonicalGuidText ((List.replicate 16 0).set 5 1) ≠ canonicalGuidText (List.replicate 16 0)) ∧
      partitionFormatUuid (gptTableOf { PartitionInfo.zero with uniqueGuid := List.replicate 16 0 })
          { PartitionInfo.zero with uniqueGuid := List.replicate 16 0 } 37 =
        .ok "00000000-0000-0000-0000-000000000000".toList :=
  ⟨rfl, rfl, by decide,
    partition_format_uuid_ignores_byte_five { PartitionInfo.zero with uniqueGuid := List.replicate 16 0 } 37 rfl rfl
      (by decide),
    by decide⟩

/-! ## append_utf8 and gpt_name_to_utf8 -/

def partitionNameSize : Nat := 128
def gptNameCodeUnits : Nat := 36

/-- load_le16(pointer) at an offset of a byte field. -/
def loadLe16 (buf : Nat → UInt8) (off : Nat) : Nat := (buf off).toNat ||| (buf (off + 1)).toNat <<< 8

/-- The encoded[] bytes append_utf8 makes of a code point. -/
def utf8Encode (codepoint : Nat) : List UInt8 :=
  if codepoint ≤ 0x7F then [UInt8.ofNat codepoint]
  else if codepoint ≤ 0x7FF then
    [UInt8.ofNat (0xC0 ||| (codepoint >>> 6) % 256), UInt8.ofNat (0x80 ||| codepoint &&& 0x3F)]
  else if codepoint ≤ 0xFFFF then
    [UInt8.ofNat (0xE0 ||| (codepoint >>> 12) % 256), UInt8.ofNat (0x80 ||| (codepoint >>> 6) &&& 0x3F),
      UInt8.ofNat (0x80 ||| codepoint &&& 0x3F)]
  else
    [UInt8.ofNat (0xF0 ||| (codepoint >>> 18) % 256), UInt8.ofNat (0x80 ||| (codepoint >>> 12) &&& 0x3F),
      UInt8.ofNat (0x80 ||| (codepoint >>> 6) &&& 0x3F), UInt8.ofNat (0x80 ||| codepoint &&& 0x3F)]

/-- append_utf8(output, capacity, used, codepoint), with used the length of the
output so far: the bytes are appended only if they leave room for the NUL. -/
def appendUtf8 (output : List UInt8) (capacity codepoint : Nat) : List UInt8 :=
  if capacity - output.length ≤ (utf8Encode codepoint).length then output else output ++ utf8Encode codepoint

/-- The body of gpt_name_to_utf8's loop at a non-zero unit i: the code point it
appends and the index it leaves i at. -/
def gptNameUnit (input : Nat → UInt8) (i : Nat) : Nat × Nat :=
  let codepoint := loadLe16 input (i * 2)
  if 0xD800 ≤ codepoint ∧ codepoint ≤ 0xDBFF then
    if i + 1 < gptNameCodeUnits then
      let low := loadLe16 input ((i + 1) * 2)
      if 0xDC00 ≤ low ∧ low ≤ 0xDFFF then (0x10000 + ((codepoint - 0xD800) <<< 10) + (low - 0xDC00), i + 1)
      -- i-- after the failed look-ahead
      else (0xFFFD, i)
    else (0xFFFD, i + 1)
  else if 0xDC00 ≤ codepoint ∧ codepoint ≤ 0xDFFF then (0xFFFD, i)
  else (codepoint, i)

/-- for (i = ...; i < GPT_NAME_CODE_UNITS; i++), with fuel. -/
def gptNameLoop (input : Nat → UInt8) : Nat → Nat → List UInt8 → List UInt8
  | 0, _, output => output
  | fuel + 1, i, output =>
    if i < gptNameCodeUnits then
      if loadLe16 input (i * 2) = 0 then output
      else gptNameLoop input fuel ((gptNameUnit input i).2 + 1)
        (appendUtf8 output partitionNameSize (gptNameUnit input i).1)
    else output

/-- gpt_name_to_utf8(input, output): output up to and including its NUL. -/
def gptNameToUtf8 (input : Nat → UInt8) : List UInt8 :=
  gptNameLoop input gptNameCodeUnits 0 [] ++ [0]

/-! ## UTF-16 by the Unicode rules -/

def isHighSurrogate (u : Nat) : Bool := 0xD800 ≤ u ∧ u ≤ 0xDBFF
def isLowSurrogate (u : Nat) : Bool := 0xDC00 ≤ u ∧ u ≤ 0xDFFF

/-- The character of a unit that is not part of a pair: U+FFFD for a surrogate. -/
def unitChar (u : Nat) : Char := if isHighSurrogate u || isLowSurrogate u then Char.ofNat 0xFFFD else Char.ofNat u

/-- Decoding UTF-16 code units with replacement: a high surrogate followed by
a low one is one supplementary character, every other surrogate U+FFFD. -/
def utf16Decode : List Nat → List Char
  | [] => []
  | [u] => [unitChar u]
  | u :: l :: rest =>
    if isHighSurrogate u ∧ isLowSurrogate l then
      Char.ofNat (0x10000 + (u - 0xD800) * 0x400 + (l - 0xDC00)) :: utf16Decode rest
    else unitChar u :: utf16Decode (l :: rest)

/-- The 36 code units of a GPT name field. -/
def gptNameUnits (input : Nat → UInt8) : List Nat :=
  (List.range gptNameCodeUnits).map fun i => loadLe16 input (i * 2)

/-- The reference conversion: UTF-16 code units decoded, then each character
in its shortest UTF-8 encoding. -/
def utf16ToUtf8 (units : List Nat) : List UInt8 := (utf16Decode units).flatMap String.utf8EncodeChar

/-- The code units of the name field from unit i on. -/
def gptNameSuffix (input : Nat → UInt8) (i : Nat) : List Nat :=
  (List.range' i (gptNameCodeUnits - i)).map fun j => loadLe16 input (j * 2)

/-! ## The bytes of one code point -/

open Utf8Bytes

theorem loadLe16_lt (buf : Nat → UInt8) (off : Nat) : loadLe16 buf off < 0x10000 := by
  have ha := (buf off).toNat_lt
  have hb := (buf (off + 1)).toNat_lt
  rw [loadLe16, Nat.lor_comm, ← Nat.shiftLeft_add_eq_or_of_lt ha, Nat.shiftLeft_eq]
  omega

/-- A lead byte: the prefix c over the payload x below it. -/
theorem toNat_lead {c x k : Nat} (hc : c % 2 ^ k = 0) (hx : x < 2 ^ k) (h : c + x < 256) :
    (UInt8.ofNat (c ||| x % 256)).toNat = c + x := by
  rw [UInt8.toNat_ofNat', Nat.mod_eq_of_lt (by omega : x < 256), or_eq_add_of_lt hc hx]
  omega

/-- A continuation byte: 10 over six payload bits. -/
theorem toNat_cont (y : Nat) : (UInt8.ofNat (0x80 ||| y &&& 0x3F)).toNat = 0x80 + y % 64 := by
  rw [UInt8.toNat_ofNat', and_0o77, or_eq_add_of_lt (b := y % 64) (k := 6) (by decide) (by omega)]
  omega

/-- append_utf8's bytes, by the range of the code point. -/
theorem map_toNat_utf8Encode {cp : Nat} (h : cp < 0x110000) :
    (utf8Encode cp).map UInt8.toNat =
      if cp < 0x80 then [cp]
      else if cp < 0x800 then [0xC0 + cp / 64, 0x80 + cp % 64]
      else if cp < 0x10000 then [0xE0 + cp / 4096, 0x80 + cp / 64 % 64, 0x80 + cp % 64]
      else [0xF0 + cp / 262144, 0x80 + cp / 4096 % 64, 0x80 + cp / 64 % 64, 0x80 + cp % 64] := by
  unfold utf8Encode
  by_cases h1 : cp < 0x80
  · rw [if_pos (by omega), if_pos h1, List.map_singleton, UInt8.toNat_ofNat', Nat.mod_eq_of_lt (by omega)]
  by_cases h2 : cp < 0x800
  · rw [if_neg (by omega), if_pos (by omega), if_neg h1, if_pos h2]
    simp only [List.map_cons, List.map_nil, toNat_cont, Nat.shiftRight_eq_div_pow, Nat.reducePow]
    rw [toNat_lead (x := cp / 64) (k := 5) (by decide) (by omega) (by omega)]
  by_cases h3 : cp < 0x10000
  · rw [if_neg (by omega), if_neg (by omega), if_pos (by omega), if_neg h1, if_neg h2, if_pos h3]
    simp only [List.map_cons, List.map_nil, toNat_cont, Nat.shiftRight_eq_div_pow, Nat.reducePow]
    rw [toNat_lead (x := cp / 4096) (k := 4) (by decide) (by omega) (by omega)]
  · rw [if_neg (by omega), if_neg (by omega), if_neg (by omega), if_neg h1, if_neg h2, if_neg h3]
    simp only [List.map_cons, List.map_nil, toNat_cont, Nat.shiftRight_eq_div_pow, Nat.reducePow]
    rw [toNat_lead (x := cp / 262144) (k := 3) (by decide) (by omega) (by omega)]

/-- append_utf8 encodes a scalar value as the standard library does. -/
theorem utf8Encode_eq_utf8EncodeChar {cp : Nat} (h : cp.isValidChar) :
    utf8Encode cp = String.utf8EncodeChar (Char.ofNat cp) := by
  apply List.map_injective_iff.mpr (fun _ _ hab => UInt8.toNat_inj.mp hab)
  have hlt : cp < 0x110000 := by
    rw [← toNat_ofNat_of_isValidChar h]
    exact toNat_lt _
  rw [map_toNat_utf8Encode hlt, map_toNat_utf8EncodeChar, toNat_ofNat_of_isValidChar h]

theorem length_utf8Encode (cp : Nat) :
    (utf8Encode cp).length = if cp ≤ 0x7F then 1 else if cp ≤ 0x7FF then 2 else if cp ≤ 0xFFFF then 3 else 4 := by
  unfold utf8Encode
  split_ifs <;> rfl

/-- A character other than NUL has no zero byte in its encoding. -/
theorem zero_not_mem_utf8EncodeChar {c : Char} (hc : c.toNat ≠ 0) : (0 : UInt8) ∉ String.utf8EncodeChar c := by
  intro h
  have hmem : (0 : UInt8).toNat ∈ (String.utf8EncodeChar c).map UInt8.toNat := List.mem_map_of_mem h
  rw [map_toNat_utf8EncodeChar] at hmem
  split_ifs at hmem <;> simp at hmem <;> omega

/-! ## The UTF-16 reference -/

theorem utf16Decode_pair {u l : Nat} (rest : List Nat) (hu : isHighSurrogate u = true) (hl : isLowSurrogate l = true) :
    utf16Decode (u :: l :: rest) = Char.ofNat (0x10000 + (u - 0xD800) * 0x400 + (l - 0xDC00)) :: utf16Decode rest := by
  simp [utf16Decode, hu, hl]

/-- A unit that does not start a pair with the unit after it decodes alone. -/
theorem utf16Decode_single {u : Nat} {units : List Nat}
    (hnp : ∀ l ∈ units.head?, ¬(isHighSurrogate u = true ∧ isLowSurrogate l = true)) :
    utf16Decode (u :: units) = unitChar u :: utf16Decode units := by
  cases units with
  | nil => rfl
  | cons l rest =>
    have h := hnp l rfl
    simp only [utf16Decode, if_neg h]

/-- No unit other than zero below 0x10000 decodes to NUL. -/
theorem toNat_ne_zero_of_mem_utf16Decode {units : List Nat} (hu : ∀ u ∈ units, u ≠ 0 ∧ u < 0x10000) :
    ∀ c ∈ utf16Decode units, c.toNat ≠ 0 := by
  have hunit : ∀ u, u ≠ 0 → u < 0x10000 → (unitChar u).toNat ≠ 0 := by
    intro u h0 hlt
    unfold unitChar
    split
    · rw [toNat_ofNat_of_isValidChar (by decide)]
      decide
    · next hs =>
      simp only [isHighSurrogate, isLowSurrogate, Bool.or_eq_true, decide_eq_true_eq, not_or, not_and,
        Nat.not_le] at hs
      rw [toNat_ofNat_of_isValidChar (by unfold Nat.isValidChar; omega)]
      exact h0
  induction units using utf16Decode.induct with
  | case1 => simp [utf16Decode]
  | case2 u =>
    simp only [utf16Decode, List.mem_singleton, forall_eq]
    exact hunit u (hu u (by simp)).1 (hu u (by simp)).2
  | case3 u l rest hpair ih =>
    simp only [isHighSurrogate, isLowSurrogate, decide_eq_true_eq] at hpair
    rw [utf16Decode_pair rest (by simp [isHighSurrogate, hpair]) (by simp [isLowSurrogate, hpair])]
    have hv : (0x10000 + (u - 0xD800) * 0x400 + (l - 0xDC00)).isValidChar := by
      unfold Nat.isValidChar
      omega
    intro c hc
    rcases List.mem_cons.mp hc with hc | hc
    · rw [hc, toNat_ofNat_of_isValidChar hv]
      omega
    · exact ih (fun v hv => hu v (by simp [hv])) c hc
  | case4 u l rest hnp ih =>
    rw [utf16Decode_single (by simpa using hnp)]
    intro c hc
    rcases List.mem_cons.mp hc with rfl | hc
    · exact hunit u (hu u (by simp)).1 (hu u (by simp)).2
    · exact ih (fun v hv => hu v (List.mem_cons_of_mem u hv)) c hc

/-- The reference conversion of units without a zero has no NUL byte. -/
theorem zero_not_mem_utf16ToUtf8 {units : List Nat} (hu : ∀ u ∈ units, u ≠ 0 ∧ u < 0x10000) :
    (0 : UInt8) ∉ utf16ToUtf8 units := by
  intro h
  obtain ⟨c, hc, h0⟩ := List.mem_flatMap.mp h
  exact zero_not_mem_utf8EncodeChar (toNat_ne_zero_of_mem_utf16Decode hu c hc) h0

/-! ## One iteration of gpt_name_to_utf8 -/

section Name

variable (input : Nat → UInt8)

theorem gptNameSuffix_of_lt {i : Nat} (hi : i < gptNameCodeUnits) :
    gptNameSuffix input i = loadLe16 input (i * 2) :: gptNameSuffix input (i + 1) := by
  have h : gptNameCodeUnits - i = gptNameCodeUnits - (i + 1) + 1 := by omega
  rw [gptNameSuffix, h, List.range'_succ, List.map_cons]
  rfl

theorem gptNameSuffix_of_le {i : Nat} (hi : gptNameCodeUnits ≤ i) : gptNameSuffix input i = [] := by
  simp [gptNameSuffix, Nat.sub_eq_zero_of_le hi]

/-- The unit after i, if the decoding reaches it. -/
theorem head?_takeWhile_gptNameSuffix {i l : Nat} (hl : l ∈ ((gptNameSuffix input (i + 1)).takeWhile (· ≠ 0)).head?) :
    i + 1 < gptNameCodeUnits ∧ l = loadLe16 input ((i + 1) * 2) := by
  by_cases hi : i + 1 < gptNameCodeUnits
  · rw [gptNameSuffix_of_lt input hi, List.takeWhile_cons] at hl
    split at hl
    · exact ⟨hi, by simpa using hl.symm⟩
    · simp at hl
  · simp [gptNameSuffix_of_le input (Nat.le_of_not_lt hi)] at hl

/-- What one iteration from unit i does: it appends the character cp and goes
on after unit j, and the reference decodes the units from i the same way. -/
structure UnitSpec (i cp j : Nat) : Prop where
  valid : cp.isValidChar
  pos : 0 < cp
  index_ge : i ≤ j
  index_le : j ≤ i + 1
  length_le : (utf8Encode cp).length ≤ 3 * (j + 1 - i)
  decode : utf16Decode ((gptNameSuffix input i).takeWhile (· ≠ 0)) =
    Char.ofNat cp :: utf16Decode ((gptNameSuffix input (j + 1)).takeWhile (· ≠ 0))

variable {input}

/-- A unit decoded alone: a lone surrogate as U+FFFD, any other unit as itself. -/
theorem unitSpec_single {i cp : Nat} (hi : i < gptNameCodeUnits) (h0 : loadLe16 input (i * 2) ≠ 0)
    (hnp : isHighSurrogate (loadLe16 input (i * 2)) = true → i + 1 < gptNameCodeUnits →
      ¬isLowSurrogate (loadLe16 input ((i + 1) * 2)) = true)
    (hcp : Char.ofNat cp = unitChar (loadLe16 input (i * 2))) (hv : cp.isValidChar) (hpos : 0 < cp)
    (hlt : cp < 0x10000) : UnitSpec input i cp i where
  valid := hv
  pos := hpos
  index_ge := Nat.le_refl i
  index_le := Nat.le_succ i
  length_le := by
    rw [length_utf8Encode]
    split_ifs <;> omega
  decode := by
    rw [gptNameSuffix_of_lt input hi, List.takeWhile_cons, if_pos (by simpa using h0), hcp]
    apply utf16Decode_single
    intro l hl ⟨hh, hlow⟩
    obtain ⟨hi1, rfl⟩ := head?_takeWhile_gptNameSuffix input hl
    exact hnp hh hi1 hlow

/-- A high surrogate followed by a low one: one supplementary character. -/
theorem unitSpec_pair {i : Nat} (hi1 : i + 1 < gptNameCodeUnits)
    (hh : isHighSurrogate (loadLe16 input (i * 2)) = true) (hl : isLowSurrogate (loadLe16 input ((i + 1) * 2)) = true) :
    UnitSpec input i (0x10000 + (loadLe16 input (i * 2) - 0xD800) * 0x400 + (loadLe16 input ((i + 1) * 2) - 0xDC00))
      (i + 1) where
  valid := by
    simp only [isHighSurrogate, isLowSurrogate, decide_eq_true_eq] at hh hl
    unfold Nat.isValidChar
    omega
  pos := by omega
  index_ge := Nat.le_succ i
  index_le := Nat.le_refl _
  length_le := by
    rw [length_utf8Encode]
    split_ifs <;> omega
  decode := by
    simp only [isHighSurrogate, isLowSurrogate, decide_eq_true_eq] at hh hl
    rw [gptNameSuffix_of_lt input (by omega), gptNameSuffix_of_lt input hi1, List.takeWhile_cons, if_pos (by simp; omega),
      List.takeWhile_cons, if_pos (by simp; omega), utf16Decode_pair _ (by simp [isHighSurrogate]; omega)
      (by simp [isLowSurrogate]; omega)]

/-- A high surrogate in the last unit: U+FFFD, and the loop index passes the end. -/
theorem UnitSpec.of_last {i cp : Nat} (h : UnitSpec input i cp i) (hi1 : gptNameCodeUnits ≤ i + 1) :
    UnitSpec input i cp (i + 1) where
  valid := h.valid
  pos := h.pos
  index_ge := Nat.le_succ i
  index_le := Nat.le_refl _
  length_le := Nat.le_trans h.length_le (by omega)
  decode := by
    rw [h.decode, gptNameSuffix_of_le input hi1, gptNameSuffix_of_le input (by omega)]

theorem unitChar_surrogate {u : Nat} (h : isHighSurrogate u = true ∨ isLowSurrogate u = true) :
    unitChar u = Char.ofNat 0xFFFD := by
  simp [unitChar, h]

/-- Every iteration gpt_name_to_utf8 runs is described by UnitSpec. -/
theorem gptNameUnit_spec {i : Nat} (hi : i < gptNameCodeUnits) (h0 : loadLe16 input (i * 2) ≠ 0) :
    UnitSpec input i (gptNameUnit input i).1 (gptNameUnit input i).2 := by
  have hu := loadLe16_lt input (i * 2)
  have hfffd : (0xFFFD : Nat).isValidChar := by decide
  unfold gptNameUnit
  by_cases hh : 0xD800 ≤ loadLe16 input (i * 2) ∧ loadLe16 input (i * 2) ≤ 0xDBFF
  · have hhb : isHighSurrogate (loadLe16 input (i * 2)) = true := by simpa [isHighSurrogate] using hh
    rw [if_pos hh]
    by_cases hi1 : i + 1 < gptNameCodeUnits
    · rw [if_pos hi1]
      by_cases hl : 0xDC00 ≤ loadLe16 input ((i + 1) * 2) ∧ loadLe16 input ((i + 1) * 2) ≤ 0xDFFF
      · rw [if_pos hl]
        simp only [Nat.shiftLeft_eq, Nat.reducePow]
        exact unitSpec_pair hi1 hhb (by simpa [isLowSurrogate] using hl)
      · -- the look-ahead failed: i-- leaves the next unit to the next iteration
        rw [if_neg hl]
        dsimp only
        refine unitSpec_single hi h0 (fun _ _ hlow => hl (by simpa [isLowSurrogate] using hlow))
          (unitChar_surrogate (Or.inl hhb)).symm hfffd (by decide) (by decide)
    · rw [if_neg hi1]
      dsimp only
      refine UnitSpec.of_last (unitSpec_single hi h0 (fun _ hi1' => absurd hi1' hi1)
        (unitChar_surrogate (Or.inl hhb)).symm hfffd (by decide) (by decide)) (Nat.le_of_not_lt hi1)
  · have hnh : isHighSurrogate (loadLe16 input (i * 2)) = false := by simpa [isHighSurrogate] using hh
    rw [if_neg hh]
    by_cases hl : 0xDC00 ≤ loadLe16 input (i * 2) ∧ loadLe16 input (i * 2) ≤ 0xDFFF
    · rw [if_pos hl]
      dsimp only
      refine unitSpec_single hi h0 (fun hh' => absurd hh' (by simp [hnh]))
        (unitChar_surrogate (Or.inr (by simpa [isLowSurrogate] using hl))).symm hfffd (by decide) (by decide)
    · rw [if_neg hl]
      have hv : (loadLe16 input (i * 2)).isValidChar := by
        unfold Nat.isValidChar
        omega
      refine unitSpec_single hi h0 (fun hh' => absurd hh' (by simp [hnh])) ?_ hv (Nat.pos_of_ne_zero h0) hu
      simp [unitChar, hnh, isLowSurrogate, hl]

/-- One iteration's share of the reference conversion. -/
theorem UnitSpec.utf16ToUtf8_eq {i cp j : Nat} (h : UnitSpec input i cp j) :
    utf16ToUtf8 ((gptNameSuffix input i).takeWhile (· ≠ 0)) =
      utf8Encode cp ++ utf16ToUtf8 ((gptNameSuffix input (j + 1)).takeWhile (· ≠ 0)) := by
  rw [utf16ToUtf8, h.decode, List.flatMap_cons, utf8Encode_eq_utf8EncodeChar h.valid]
  rfl

/-! ## The whole loop -/

theorem appendUtf8_of_lt {output : List UInt8} {capacity cp : Nat}
    (h : output.length + (utf8Encode cp).length < capacity) : appendUtf8 output capacity cp = output ++ utf8Encode cp := by
  rw [appendUtf8, if_neg (by omega)]

/-- append_utf8 always leaves room for the NUL. -/
theorem length_appendUtf8_lt {output : List UInt8} {capacity : Nat} (cp : Nat) (h : output.length < capacity) :
    (appendUtf8 output capacity cp).length < capacity := by
  unfold appendUtf8
  split
  · exact h
  · next hroom =>
    rw [List.length_append]
    omega

theorem length_gptNameLoop_lt :
    ∀ (fuel i : Nat) {output : List UInt8}, output.length < partitionNameSize →
      (gptNameLoop input fuel i output).length < partitionNameSize
  | 0, _, _, h => h
  | fuel + 1, i, output, h => by
    unfold gptNameLoop
    split
    · split
      · exact h
      · exact length_gptNameLoop_lt fuel _ (length_appendUtf8_lt _ h)
    · exact h

/-- The decoding reaches neither a zero unit nor the end of the field. -/
theorem utf16ToUtf8_of_stop {i : Nat} (h : gptNameCodeUnits ≤ i ∨ loadLe16 input (i * 2) = 0) :
    utf16ToUtf8 ((gptNameSuffix input i).takeWhile (· ≠ 0)) = [] := by
  rcases h with h | h
  · rw [gptNameSuffix_of_le input h]
    rfl
  · by_cases hi : i < gptNameCodeUnits
    · rw [gptNameSuffix_of_lt input hi, List.takeWhile_cons, if_neg (by simpa using h)]
      rfl
    · rw [gptNameSuffix_of_le input (Nat.le_of_not_lt hi)]
      rfl

/-- The loop invariant: from unit i, with at most three bytes written per unit
consumed, the loop appends the reference conversion of the rest of the name.
The induction is on the fuel, which covers the units left. -/
theorem gptNameLoop_eq :
    ∀ (fuel i : Nat) (output : List UInt8), gptNameCodeUnits ≤ i + fuel → output.length ≤ 3 * i →
      gptNameLoop input fuel i output = output ++ utf16ToUtf8 ((gptNameSuffix input i).takeWhile (· ≠ 0))
  | 0, i, output, hfuel, _ => by
    rw [utf16ToUtf8_of_stop (Or.inl (by omega)), List.append_nil]
    rfl
  | fuel + 1, i, output, hfuel, hlen => by
    unfold gptNameLoop
    by_cases hi : i < gptNameCodeUnits
    · rw [if_pos hi]
      by_cases h0 : loadLe16 input (i * 2) = 0
      · rw [if_pos h0, utf16ToUtf8_of_stop (Or.inr h0), List.append_nil]
      · rw [if_neg h0]
        have hs := gptNameUnit_spec hi h0
        have hi' : i < 36 := hi
        have hroom : output.length + (utf8Encode (gptNameUnit input i).1).length < partitionNameSize := by
          have := hs.length_le
          have := hs.index_le
          unfold partitionNameSize
          omega
        rw [appendUtf8_of_lt hroom, gptNameLoop_eq fuel _ _ (by have := hs.index_ge; omega)
          (by rw [List.length_append]; have := hs.length_le; have := hs.index_ge; omega),
          hs.utf16ToUtf8_eq, List.append_assoc]
    · rw [if_neg hi, utf16ToUtf8_of_stop (Or.inl (Nat.le_of_not_lt hi)), List.append_nil]

end Name

/-- gpt_name_to_utf8 writes the UTF-8 encoding of the name's UTF-16 code units
up to the first zero unit, pairs combined and lone surrogates U+FFFD, then a
NUL: nothing is dropped or reordered, the text has no NUL of its own, and the
whole fits PARTITION_NAME_SIZE. -/
theorem gpt_name_to_utf8_decodes (input : Nat → UInt8) :
    gptNameToUtf8 input = utf16ToUtf8 ((gptNameUnits input).takeWhile (· ≠ 0)) ++ [0] ∧
      (0 : UInt8) ∉ utf16ToUtf8 ((gptNameUnits input).takeWhile (· ≠ 0)) ∧
      (gptNameToUtf8 input).length ≤ partitionNameSize := by
  have hunits : gptNameUnits input = gptNameSuffix input 0 := by
    rw [gptNameUnits, List.range_eq_range']
    rfl
  refine ⟨?_, ?_, ?_⟩
  · rw [gptNameToUtf8, hunits, gptNameLoop_eq gptNameCodeUnits 0 [] (by omega) (by simp), List.nil_append]
  · apply zero_not_mem_utf16ToUtf8
    intro u hu
    have hne : u ≠ 0 := by simpa using List.all_eq_true.mp List.all_takeWhile u hu
    obtain ⟨j, -, rfl⟩ := List.mem_map.mp (List.takeWhile_subset _ hu)
    exact ⟨hne, loadLe16_lt input _⟩
  · rw [gptNameToUtf8, List.length_append, List.length_singleton]
    exact length_gptNameLoop_lt gptNameCodeUnits 0 (by decide)

/-- U+1F600 as the pair D83D DE00, then a lone low surrogate. -/
example : gptNameToUtf8 (fun i => [0x3D, 0xD8, 0x00, 0xDE, 0x00, 0xDC].getD i 0) =
    [0xF0, 0x9F, 0x98, 0x80, 0xEF, 0xBF, 0xBD, 0] := by
  decide

end Uinxed.Block
