/-
  Block/Partition.lean --- the MBR and GPT partition scanner of
  src/drivers/block/core/partition.c.

  WHAT IS MODELLED.  partition_scan and everything it calls: the sector reads
  (read_sector, read_disk_bytes, disk_crc32), table_add, the MBR path
  (validate_mbr_entry, parse_mbr, parse_ebr_chain) and the GPT path
  (validate_gpt_header, gpt_locations_match, parse_gpt_entries, with the
  fallback to the backup header).  The device is any block device: a sector
  size, a sector count, the byte at every offset, and the status the driver
  returns for each sector it is asked to read.

  THE READS ARE LOGGED.  Every computation that reads runs in DiskM, which is
  TraceM over LBAs: blockdev_read_sectors records the LBA it hands to the
  driver, so what the scanner reads is the log a run leaves.

  DELIBERATE CHOICES.  Values are Nat.  The subtractions of the source are
  guarded, so truncation never differs from the machine's; the two sums the
  source does not guard (the overlap test of table_add, end - start + 1 of a
  GPT entry) wrap at 2^64 with u64.  Buffers are functions from offsets to
  bytes.  The loops over slots and entries recurse over the list of their
  indices; the byte loops run with their byte count as fuel, which any
  positive sector size makes enough (partition_scan checks the size first);
  the EBR walk recurses on the slots left in its visited array, the bound the
  source itself stops at.  No check of the scanner reads the partition name;
  gpt_name_to_utf8 and the PARTUUID text are modelled in PartitionText.
-/
import Mathlib.Algebra.GroupWithZero.Nat
import Uinxed.Lib.TraceExcept
import Mathlib.Data.List.Basic
import Mathlib.Logic.Function.Iterate

set_option autoImplicit false

namespace Uinxed.Block

open TraceExcept

/-! ## Constants -/

def enoent : Int := 2
def eio : Int := 5
def enomem : Int := 12
def einval : Int := 22
def enospc : Int := 28
def eloop : Int := 40
def ebadmsg : Int := 74
def eoverflow : Int := 75

def partitionMaxCount : Nat := 255
def mbrSignatureOffset : Nat := 510
def mbrDiskIdOffset : Nat := 440
def mbrPartitionOffset : Nat := 446
def mbrPartitionSize : Nat := 16
def mbrPartitionCount : Nat := 4
def mbrProtectiveType : UInt8 := 0xEE
def gptHeaderSize : Nat := 92
def gptPrimaryLba : Nat := 1
def gptReadOnly : Nat := 2 ^ 60
def gptRevision10 : Nat := 0x00010000

/-- "EFI PART". -/
def gptSignature : List UInt8 := [0x45, 0x46, 0x49, 0x20, 0x50, 0x41, 0x52, 0x54]

/-- UINT64_MAX. -/
def uint64Max : Nat := 2 ^ 64 - 1

/-- A sum in uint64_t. -/
def u64 (n : Nat) : Nat := n % 2 ^ 64

/-! ## The device -/

/-- blockdev_device_t as the scanner sees it: the geometry, the byte at every
offset of the disk, and the status the driver's read_sectors returns for a
sector (none for success). -/
structure BlockDevice where
  sectorSize : Nat
  sectorCount : Nat
  byte : Nat → UInt8
  readError : Nat → Option Int

/-- The contents of a sector. -/
def BlockDevice.sector (d : BlockDevice) (lba : Nat) : Nat → UInt8 := fun i => d.byte (lba * d.sectorSize + i)

/-- The bytes of the disk at [offset, offset + size). -/
def BlockDevice.bytes (d : BlockDevice) (offset size : Nat) : List UInt8 :=
  (List.range size).map fun i => d.byte (offset + i)

/-- The scanner's computations: they fail with a negative status and log the
LBAs they read. -/
abbrev DiskM (α : Type) : Type := TraceM Int Nat α

/-! ## Little-endian fields -/

def loadLe32 (buf : Nat → UInt8) (off : Nat) : Nat :=
  (buf off).toNat ||| (buf (off + 1)).toNat <<< 8 ||| (buf (off + 2)).toNat <<< 16 ||| (buf (off + 3)).toNat <<< 24

def loadLe64 (buf : Nat → UInt8) (off : Nat) : Nat := loadLe32 buf off ||| loadLe32 buf (off + 4) <<< 32

/-- The 16 bytes of a GUID at an offset. -/
def guidAt (buf : Nat → UInt8) (off : Nat) : List UInt8 := (List.range 16).map fun i => buf (off + i)

def guidIsZero (guid : List UInt8) : Bool := guid.all (· == 0)

/-- Check that [start, start+count) lies within the disk's LBA range. -/
def rangeValid (start count limit : Nat) : Bool := count != 0 && decide (start < limit) && decide (count ≤ limit - start)

def isPowerOfTwo (value : Nat) : Bool := value != 0 && (value &&& (value - 1)) == 0

def mbrIsExtended (type : UInt8) : Bool := type == 0x05 || type == 0x0F || type == 0x85

/-- The 16-byte entry of an MBR or EBR slot. -/
def mbrEntry (sector : Nat → UInt8) (slot : Nat) : Nat → UInt8 :=
  fun i => sector (mbrPartitionOffset + slot * mbrPartitionSize + i)

/-- The 0x55 0xAA signature at the end of an MBR or EBR. -/
def mbrSigned (sector : Nat → UInt8) : Bool :=
  sector mbrSignatureOffset == 0x55 && sector (mbrSignatureOffset + 1) == 0xAA

/-! ## Reading the disk -/

/-- blockdev_read_sectors for one sector: the device layer's range check,
then the driver. -/
def blockdevReadSectors (d : BlockDevice) (lba : Nat) : DiskM (Nat → UInt8) :=
  if lba ≥ d.sectorCount ∨ 1 > d.sectorCount - lba then throw (-einval)
  else do
    TraceM.record lba
    match d.readError lba with
    | some status => throw status
    | none => pure (d.sector lba)

/-- Read a single sector, rejecting out-of-range LBAs. -/
def readSector (d : BlockDevice) (lba : Nat) : DiskM (Nat → UInt8) :=
  if lba ≥ d.sectorCount then throw (-einval) else blockdevReadSectors d lba

/-- The loop of read_disk_bytes: copy size bytes from byteOffset, the part of
one sector at a time, after the bytes already in out. -/
def readDiskBytesLoop (d : BlockDevice) : Nat → Nat → Nat → List UInt8 → DiskM (List UInt8)
  | 0, _, _, out => pure out
  | fuel + 1, byteOffset, size, out =>
    if size = 0 then pure out
    else do
      let lba := byteOffset / d.sectorSize
      let sectorOffset := byteOffset % d.sectorSize
      let copySize := min (d.sectorSize - sectorOffset) size
      let scratch ← readSector d lba
      readDiskBytesLoop d fuel (byteOffset + copySize) (size - copySize)
        (out ++ (List.range copySize).map fun i => scratch (sectorOffset + i))

/-- Copy an arbitrary byte range from the disk, crossing sector boundaries. -/
def readDiskBytes (d : BlockDevice) (byteOffset size : Nat) : DiskM (List UInt8) :=
  readDiskBytesLoop d size byteOffset size []

/-! ## CRC-32 -/

/-- One bit of the reflected CRC-32 (IEEE 802.3). -/
def crc32Bit (crc : UInt32) : UInt32 := (crc >>> 1) ^^^ (0xEDB88320 &&& (0 - (crc &&& 1)))

def crc32Byte (crc : UInt32) (b : UInt8) : UInt32 := Nat.iterate crc32Bit 8 (crc ^^^ b.toUInt32)

def crc32Update (crc : UInt32) (buffer : List UInt8) : UInt32 := buffer.foldl crc32Byte crc

/-- The CRC-32 of a byte string. -/
def crc32 (buffer : List UInt8) : UInt32 := crc32Update 0xFFFFFFFF buffer ^^^ 0xFFFFFFFF

/-- The loop of disk_crc32: fold the CRC over size bytes from byteOffset, the
part of one sector at a time. -/
def diskCrc32Loop (d : BlockDevice) : Nat → Nat → Nat → UInt32 → DiskM UInt32
  | 0, _, _, crc => pure crc
  | fuel + 1, byteOffset, size, crc =>
    if size = 0 then pure crc
    else do
      let lba := byteOffset / d.sectorSize
      let sectorOffset := byteOffset % d.sectorSize
      let count := min (d.sectorSize - sectorOffset) size
      let scratch ← readSector d lba
      diskCrc32Loop d fuel (byteOffset + count) (size - count)
        (crc32Update crc ((List.range count).map fun i => scratch (sectorOffset + i)))

/-- Compute CRC-32 over a byte range on disk without loading it into RAM. -/
def diskCrc32 (d : BlockDevice) (byteOffset size : Nat) : DiskM UInt32 := do
  let crc ← diskCrc32Loop d size byteOffset size 0xFFFFFFFF
  pure (crc ^^^ 0xFFFFFFFF)

/-! ## The table -/

inductive PartitionTableType where
  | none
  | mbr
  | gpt
  deriving DecidableEq, Repr

/-- partition_info_t without its name. -/
structure PartitionInfo where
  number : Nat
  startLba : Nat
  sectorCount : Nat
  attributes : Nat
  mbrType : UInt8
  typeGuid : List UInt8
  uniqueGuid : List UInt8
  bootable : Bool
  readOnly : Bool
  extended : Bool
  deriving DecidableEq, Repr

/-- A partition_info_t after memset to zero. -/
def PartitionInfo.zero : PartitionInfo :=
  ⟨0, 0, 0, 0, 0, List.replicate 16 0, List.replicate 16 0, false, false, false⟩

/-- partition_table_t; count is the length of the list. -/
structure PartitionTable where
  type : PartitionTableType
  partitions : List PartitionInfo
  mbrDiskSignature : Nat
  diskGuid : List UInt8
  degraded : Bool
  hybrid : Bool
  deriving DecidableEq, Repr

/-- A partition_table_t after memset to zero. -/
def PartitionTable.empty : PartitionTable := ⟨.none, [], 0, List.replicate 16 0, false, false⟩

/-- The tests of table_add's loop against one partition already in the
table: the same number, the same non-zero unique GUID, or two non-extended
partitions whose ranges meet. -/
def PartitionInfo.conflicts (other partition : PartitionInfo) : Bool :=
  other.number == partition.number ||
    (!guidIsZero partition.uniqueGuid && other.uniqueGuid == partition.uniqueGuid) ||
    (!(other.extended || partition.extended) &&
      decide (partition.startLba < u64 (other.startLba + other.sectorCount)) &&
      decide (other.startLba < u64 (partition.startLba + partition.sectorCount)))

/-- Add a partition to the table, rejecting duplicates, overlaps and
overflows; a number past PARTITION_MAX_COUNT is dropped. -/
def tableAdd (table : PartitionTable) (partition : PartitionInfo) : Except Int PartitionTable :=
  if partition.number > partitionMaxCount then .ok table
  else if table.partitions.length ≥ partitionMaxCount then .error (-enospc)
  else if table.partitions.any (fun other => other.conflicts partition) then .error (-einval)
  else .ok { table with partitions := table.partitions ++ [partition] }

/-! ## MBR -/

/-- Validate one MBR entry's status and LBA range; its start and count. -/
def validateMbrEntry (entry : Nat → UInt8) (diskSectors : Nat) : Except Int (Nat × Nat) :=
  let status := entry 0
  if status ≠ 0 ∧ status ≠ 0x80 then .error (-einval)
  else
    let start := loadLe32 entry 8
    let count := loadLe32 entry 12
    if entry 4 = 0 ∧ count = 0 then .ok (start, count)
    else if entry 4 = 0 ∨ !rangeValid start count diskSectors then .error (-einval)
    else .ok (start, count)

/-- The slot loop of parse_ebr_chain over one EBR at LBA current: add the
logical partitions, numbered from nextNumber on, and find the link slot. -/
def ebrSlots (d : BlockDevice) (sector : Nat → UInt8) (current extendedStart extendedCount : Nat) :
    List Nat → PartitionTable → Nat → Option Nat → Except Int (PartitionTable × Nat × Option Nat)
  | [], table, nextNumber, link => .ok (table, nextNumber, link)
  | slot :: rest, table, nextNumber, link =>
    let entry := mbrEntry sector slot
    let type := entry 4
    if type = 0 ∧ loadLe32 entry 12 = 0 then ebrSlots d sector current extendedStart extendedCount rest table nextNumber link
    else if entry 0 ≠ 0 ∧ entry 0 ≠ 0x80 then .error (-einval)
    else
      let relativeStart := loadLe32 entry 8
      let count := loadLe32 entry 12
      if type = 0 ∨ count = 0 then .error (-einval)
      else if mbrIsExtended type then
        if link.isSome then .error (-einval)
        else ebrSlots d sector current extendedStart extendedCount rest table nextNumber (some slot)
      else if relativeStart > uint64Max - current then .error (-eoverflow)
      else
        let absoluteStart := current + relativeStart
        if !rangeValid absoluteStart count d.sectorCount then .error (-einval)
        else if absoluteStart < extendedStart ∨ absoluteStart - extendedStart ≥ extendedCount ∨
            count > extendedCount - (absoluteStart - extendedStart) then .error (-einval)
        else do
          let partition : PartitionInfo :=
            { PartitionInfo.zero with
              number := nextNumber, startLba := absoluteStart, sectorCount := count, mbrType := type,
              bootable := entry 0 == 0x80 }
          let table ← tableAdd table partition
          ebrSlots d sector current extendedStart extendedCount rest table (nextNumber + 1) link

/-- The loop of parse_ebr_chain from the EBR at current, with the LBAs
already visited. -/
def parseEbrLoop (d : BlockDevice) (extendedStart extendedCount : Nat) (current : Nat) (visited : List Nat)
    (table : PartitionTable) (nextNumber : Nat) : DiskM (PartitionTable × Nat) :=
  if nextNumber > partitionMaxCount then pure (table, nextNumber)
  else if current ∈ visited then throw (-eloop)
  else if visited.length ≥ partitionMaxCount then throw (-eloop)
  else do
    let sector ← readSector d current
    if !mbrSigned sector then throw (-ebadmsg)
    else do
      let (table, nextNumber, link) ←
        TraceM.lift (ebrSlots d sector current extendedStart extendedCount [0, 1, 2, 3] table nextNumber none)
      match link with
      | none => pure (table, nextNumber)
      | some slot =>
        let entry := mbrEntry sector slot
        let relative := loadLe32 entry 8
        let count := loadLe32 entry 12
        if relative > uint64Max - extendedStart then throw (-eoverflow)
        else
          let next := extendedStart + relative
          if !rangeValid next count d.sectorCount then throw (-einval)
          else if next < extendedStart ∨ next - extendedStart ≥ extendedCount ∨
              count > extendedCount - (next - extendedStart) then throw (-einval)
          else parseEbrLoop d extendedStart extendedCount next (visited ++ [current]) table nextNumber
termination_by partitionMaxCount - visited.length
decreasing_by simp only [List.length_append, List.length_singleton]; omega

/-- Walk a chain of extended-boot-record (EBR) sectors for logical
partitions. -/
def parseEbrChain (d : BlockDevice) (table : PartitionTable) (extendedStart extendedCount nextNumber : Nat) :
    DiskM (PartitionTable × Nat) :=
  parseEbrLoop d extendedStart extendedCount extendedStart [] table nextNumber

/-- The primary slot loop of parse_mbr: add the primary partitions and
collect the extended entries. -/
def mbrPrimaries (d : BlockDevice) (mbr : Nat → UInt8) :
    List Nat → PartitionTable → List (Nat × Nat) → Except Int (PartitionTable × List (Nat × Nat))
  | [], table, extended => .ok (table, extended)
  | slot :: rest, table, extended => do
    let entry := mbrEntry mbr slot
    let type := entry 4
    let (start, count) ← validateMbrEntry entry d.sectorCount
    if type = 0 ∧ count = 0 then mbrPrimaries d mbr rest table extended
    else
      let partition : PartitionInfo :=
        { PartitionInfo.zero with
          number := slot + 1, startLba := start, sectorCount := count, mbrType := type, bootable := entry 0 == 0x80 }
      if mbrIsExtended type then
        let bytes := if d.sectorSize > 1024 then d.sectorSize else 1024
        let table ← tableAdd table { partition with sectorCount := min (bytes / d.sectorSize) count, extended := true }
        mbrPrimaries d mbr rest table (extended ++ [(start, count)])
      else
        let table ← tableAdd table partition
        mbrPrimaries d mbr rest table extended

/-- The chains of the extended entries, in order, numbering on. -/
def ebrChains (d : BlockDevice) : List (Nat × Nat) → PartitionTable → Nat → DiskM (PartitionTable × Nat)
  | [], table, nextNumber => pure (table, nextNumber)
  | (start, count) :: rest, table, nextNumber => do
    let (table, nextNumber) ← parseEbrChain d table start count nextNumber
    ebrChains d rest table nextNumber

/-- Parse a primary MBR, collecting the four primary entries plus EBR
chains. -/
def parseMbr (d : BlockDevice) (table : PartitionTable) (mbr : Nat → UInt8) : DiskM PartitionTable := do
  let table := { table with type := .mbr, mbrDiskSignature := loadLe32 mbr mbrDiskIdOffset }
  let (table, extended) ← TraceM.lift (mbrPrimaries d mbr [0, 1, 2, 3] table [])
  let (table, _) ← ebrChains d extended table 5
  if table.partitions.length ≠ 0 then pure table else throw (-enoent)

/-! ## GPT -/

/-- gpt_location_t. -/
structure GptLocation where
  currentLba : Nat
  alternateLba : Nat
  firstUsableLba : Nat
  lastUsableLba : Nat
  entriesLba : Nat
  entriesBytes : Nat
  entryCount : Nat
  entrySize : Nat
  entriesCrc : Nat
  diskGuid : List UInt8
  valid : Bool
  deriving DecidableEq, Repr

/-- The fields validate_gpt_header reads out of a header sector. -/
def gptDecodeHeader (sector : Nat → UInt8) : GptLocation where
  currentLba := loadLe64 sector 24
  alternateLba := loadLe64 sector 32
  firstUsableLba := loadLe64 sector 40
  lastUsableLba := loadLe64 sector 48
  entriesLba := loadLe64 sector 72
  entriesBytes := 0
  entryCount := loadLe32 sector 80
  entrySize := loadLe32 sector 84
  entriesCrc := loadLe32 sector 88
  diskGuid := guidAt sector 56
  valid := false

/-- The header bytes the header CRC covers, with the CRC field zeroed. -/
def gptHeaderCrcBytes (sector : Nat → UInt8) (headerSize : Nat) : List UInt8 :=
  (List.range headerSize).map fun i => if 16 ≤ i ∧ i < 20 then 0 else sector i

/-- The checks of validate_gpt_header on a decoded header, up to the CRC of
the entry array; none when they pass. -/
def gptLocationError (d : BlockDevice) (headerLba : Nat) (loc : GptLocation) : Option Int :=
  if loc.currentLba ≠ headerLba ∨ loc.alternateLba ≥ d.sectorCount ∨ loc.alternateLba = headerLba then some (-einval)
  else if loc.firstUsableLba > loc.lastUsableLba ∨ loc.lastUsableLba ≥ d.sectorCount then some (-einval)
  else if loc.entryCount = 0 ∨ loc.entrySize < 128 ∨ loc.entrySize % 128 ≠ 0 ∨ !isPowerOfTwo (loc.entrySize / 128) then
    some (-einval)
  else if loc.entryCount > uint64Max / loc.entrySize then some (-eoverflow)
  else
    let entriesBytes := loc.entryCount * loc.entrySize
    let entryBlocks := entriesBytes / d.sectorSize + (if entriesBytes % d.sectorSize ≠ 0 then 1 else 0)
    if entryBlocks = 0 ∨ loc.entriesLba ≥ d.sectorCount ∨ entryBlocks > d.sectorCount - loc.entriesLba then some (-einval)
    else
      let tableEnd := loc.entriesLba + entryBlocks
      if headerLba = gptPrimaryLba then
        if loc.alternateLba ≠ d.sectorCount - 1 ∨ loc.entriesLba ≤ headerLba ∨ tableEnd > loc.firstUsableLba then
          some (-einval)
        else none
      else if headerLba ≠ d.sectorCount - 1 ∨ loc.alternateLba ≠ gptPrimaryLba ∨ loc.entriesLba ≤ loc.lastUsableLba ∨
          tableEnd > headerLba then some (-einval)
      else none

/-- Read and validate a GPT header at header_lba. -/
def validateGptHeader (d : BlockDevice) (headerLba : Nat) : DiskM GptLocation := do
  let sector ← readSector d headerLba
  if (List.range 8).map sector ≠ gptSignature then throw (-ebadmsg)
  else if loadLe32 sector 8 ≠ gptRevision10 ∨ loadLe32 sector 20 ≠ 0 then throw (-einval)
  else
    let headerSize := loadLe32 sector 12
    if headerSize < gptHeaderSize ∨ headerSize > d.sectorSize then throw (-einval)
    else if loadLe32 sector 16 ≠ (crc32 (gptHeaderCrcBytes sector headerSize)).toNat then throw (-ebadmsg)
    else if (List.range' headerSize (d.sectorSize - headerSize)).any (fun i => sector i != 0) then throw (-einval)
    else
      let loc := gptDecodeHeader sector
      match gptLocationError d headerLba loc with
      | some status => throw status
      | none => do
        let entriesBytes := loc.entryCount * loc.entrySize
        let crc ← diskCrc32 d (loc.entriesLba * d.sectorSize) entriesBytes
        if crc.toNat ≠ loc.entriesCrc then throw (-ebadmsg)
        else pure { loc with entriesBytes := entriesBytes, valid := true }

/-- Compare the primary and backup GPT headers for consistency. -/
def gptLocationsMatch (primary backup : GptLocation) : Bool :=
  primary.currentLba == backup.alternateLba && primary.alternateLba == backup.currentLba &&
    primary.firstUsableLba == backup.firstUsableLba && primary.lastUsableLba == backup.lastUsableLba &&
    primary.entryCount == backup.entryCount && primary.entrySize == backup.entrySize &&
    primary.entriesCrc == backup.entriesCrc && primary.diskGuid == backup.diskGuid

/-- The entry loop of parse_gpt_entries over the indices left. -/
def parseGptEntriesLoop (d : BlockDevice) (loc : GptLocation) : List Nat → PartitionTable → DiskM PartitionTable
  | [], table => pure table
  | index :: rest, table =>
    if index > (uint64Max - loc.entriesLba * d.sectorSize) / loc.entrySize then throw (-eoverflow)
    else do
      let bytes ← readDiskBytes d (loc.entriesLba * d.sectorSize + index * loc.entrySize) 128
      let entry : Nat → UInt8 := fun i => bytes.getD i 0
      if guidIsZero (guidAt entry 0) then parseGptEntriesLoop d loc rest table
      else if guidIsZero (guidAt entry 16) then throw (-einval)
      else
        let start := loadLe64 entry 32
        let last := loadLe64 entry 40
        if start > last ∨ start < loc.firstUsableLba ∨ last > loc.lastUsableLba then throw (-einval)
        else do
          let attributes := loadLe64 entry 48
          let partition : PartitionInfo :=
            { PartitionInfo.zero with
              number := index + 1, startLba := start, sectorCount := u64 (last - start + 1), attributes := attributes,
              readOnly := attributes &&& gptReadOnly != 0, typeGuid := guidAt entry 0, uniqueGuid := guidAt entry 16 }
          let table ← TraceM.lift (tableAdd table partition)
          parseGptEntriesLoop d loc rest table

/-- Parse the partition-entry array described by a validated GPT header. -/
def parseGptEntries (d : BlockDevice) (table : PartitionTable) (loc : GptLocation) : DiskM PartitionTable :=
  parseGptEntriesLoop d loc (List.range (min loc.entryCount partitionMaxCount)) table

/-- The GPT part of partition_scan: validate both headers, parse the entries
of the primary one and fall back to the backup one. -/
def gptScan (d : BlockDevice) (table : PartitionTable) : DiskM PartitionTable := do
  let primary ← TraceM.attempt (validateGptHeader d gptPrimaryLba)
  let backup ← TraceM.attempt (validateGptHeader d (d.sectorCount - 1))
  match primary, backup with
  | .error primaryStatus, .error backupStatus =>
    throw (if primaryStatus = -eio ∨ backupStatus = -eio then -eio else -ebadmsg)
  | .ok p, b =>
    let degraded := match b with
      | .ok bl => !gptLocationsMatch p bl
      | .error _ => true
    let table := { table with type := .gpt, degraded := degraded, diskGuid := p.diskGuid }
    match ← TraceM.attempt (parseGptEntries d table p) with
    | .ok t => pure t
    | .error status =>
      match b with
      | .error _ => throw status
      | .ok bl => parseGptEntries d { table with partitions := [], degraded := true, diskGuid := bl.diskGuid } bl
  | .error _, .ok bl => parseGptEntries d { table with type := .gpt, degraded := true, diskGuid := bl.diskGuid } bl

/-- A protective MBR entry: type 0xEE starting at LBA 1. -/
def mbrProtective (sector : Nat → UInt8) : Bool :=
  (List.range mbrPartitionCount).any fun slot =>
    mbrEntry sector slot 4 == mbrProtectiveType && loadLe32 (mbrEntry sector slot) 8 == gptPrimaryLba

/-- An MBR entry of another type than empty or protective. -/
def mbrLegacyEntry (sector : Nat → UInt8) : Bool :=
  (List.range mbrPartitionCount).any fun slot => mbrEntry sector slot 4 != 0 && mbrEntry sector slot 4 != mbrProtectiveType

/-- Detect the partition-table format on a disk and populate a table; the
buffers' allocation fails when allocFails.  On failure the source destroys
the table, so only the status comes back. -/
def partitionScan (d : BlockDevice) (allocFails : Bool) : DiskM PartitionTable :=
  if d.sectorCount < 1 ∨ d.sectorSize < 512 ∨ !isPowerOfTwo d.sectorSize then throw (-einval)
  else if d.sectorCount > uint64Max / d.sectorSize then throw (-eoverflow)
  else if allocFails then throw (-enomem)
  else do
    let sector ← readSector d 0
    if !mbrSigned sector then throw (-enoent)
    else
      let protective := mbrProtective sector
      let table := { PartitionTable.empty with hybrid := protective && mbrLegacyEntry sector }
      if !protective then parseMbr d table sector
      else if d.sectorCount < 3 then throw (-ebadmsg)
      else gptScan d table

end Uinxed.Block
