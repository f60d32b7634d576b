/-
  Block/PartitionScan.lean --- what partition_scan reads.

  Every sector read goes through read_sector, which refuses an LBA at or past
  the end of the disk before the driver is called, so every LBA a run logs
  lies on the disk (logsIn_partitionScan): each function of the scanner has
  its LogsIn lemma, and a loop its induction.  The byte loops take fuel for
  their byte count; with a positive sector size each round copies at least
  one byte, and disk_crc32 sees exactly the range it is given
  (returns_diskCrc32): the chunks of the rounds are the consecutive parts of
  the range (sector_chunk, bytes_append).
-/
import Uinxed.Block.Partition

set_option autoImplicit false

namespace Uinxed.Block

open TraceExcept

variable {d : BlockDevice}

/-! ## The disk's bytes -/

/-- The part of a sector from an offset on is the disk's bytes from there. -/
theorem sector_chunk (d : BlockDevice) (off n : Nat) :
    (List.range n).map (fun i => d.sector (off / d.sectorSize) (off % d.sectorSize + i)) = d.bytes off n := by
  simp only [BlockDevice.sector, BlockDevice.bytes, ← Nat.add_assoc, Nat.div_add_mod']

theorem bytes_append (d : BlockDevice) (off m n : Nat) : d.bytes off (m + n) = d.bytes off m ++ d.bytes (off + m) n := by
  simp only [BlockDevice.bytes, List.range_add, List.map_append, List.map_map, Function.comp_def, Nat.add_assoc]

theorem crc32Update_append (crc : UInt32) (xs ys : List UInt8) :
    crc32Update crc (xs ++ ys) = crc32Update (crc32Update crc xs) ys :=
  List.foldl_append

/-- A round of the byte loops copies at least one byte, and no more than is
left. -/
theorem chunk_pos (hss : 0 < d.sectorSize) (off : Nat) {size : Nat} (hs : size ≠ 0) :
    0 < min (d.sectorSize - off % d.sectorSize) size := by
  have := Nat.mod_lt off hss
  omega

/-! ## Reads -/

theorem logsIn_blockdevReadSectors (lba : Nat) : LogsIn (· < d.sectorCount) (blockdevReadSectors d lba) := by
  unfold blockdevReadSectors
  split
  · exact logsIn_throw _
  · next hlba =>
    refine logsIn_bind (logsIn_record (by omega)) fun _ => ?_
    split
    · exact logsIn_throw _
    · exact logsIn_pure _

theorem logsIn_readSector (lba : Nat) : LogsIn (· < d.sectorCount) (readSector d lba) := by
  unfold readSector
  split
  · exact logsIn_throw _
  · exact logsIn_blockdevReadSectors lba

/-- A sector that read_sector returns holds the disk's bytes at its LBA. -/
theorem returns_readSector (lba : Nat) : Returns (· = d.sector lba) (readSector d lba) := by
  unfold readSector blockdevReadSectors
  split
  · exact returns_throw _
  split
  · exact returns_throw _
  · refine returns_bind (returns_record lba) fun _ _ => ?_
    split
    · exact returns_throw _
    · exact returns_pure rfl

theorem logsIn_readDiskBytesLoop :
    ∀ fuel off size out, LogsIn (· < d.sectorCount) (readDiskBytesLoop d fuel off size out)
  | 0, _, _, _ => logsIn_pure _
  | fuel + 1, off, size, out => by
    simp only [readDiskBytesLoop]
    split
    · exact logsIn_pure _
    · exact logsIn_bind (logsIn_readSector _) fun _ => logsIn_readDiskBytesLoop fuel _ _ _

theorem logsIn_diskCrc32Loop : ∀ fuel off size crc, LogsIn (· < d.sectorCount) (diskCrc32Loop d fuel off size crc)
  | 0, _, _, _ => logsIn_pure _
  | fuel + 1, off, size, crc => by
    simp only [diskCrc32Loop]
    split
    · exact logsIn_pure _
    · exact logsIn_bind (logsIn_readSector _) fun _ => logsIn_diskCrc32Loop fuel _ _ _

theorem logsIn_diskCrc32 (off size : Nat) : LogsIn (· < d.sectorCount) (diskCrc32 d off size) :=
  logsIn_bind (logsIn_diskCrc32Loop _ _ _ _) fun _ => logsIn_pure _

theorem returns_diskCrc32Loop (hss : 0 < d.sectorSize) :
    ∀ fuel off size crc, size ≤ fuel →
      Returns (· = crc32Update crc (d.bytes off size)) (diskCrc32Loop d fuel off size crc)
  | 0, off, size, crc, hs => by
    obtain rfl : size = 0 := by omega
    exact returns_pure (by simp [BlockDevice.bytes, crc32Update])
  | fuel + 1, off, size, crc, hs => by
    simp only [diskCrc32Loop]
    split
    · next h0 =>
      subst h0
      exact returns_pure (by simp [BlockDevice.bytes, crc32Update])
    · next h0 =>
      have hc := chunk_pos hss off h0
      refine returns_bind (returns_readSector _) fun scratch hscratch => ?_
      subst hscratch
      refine (returns_diskCrc32Loop hss fuel _ _ _ (by omega)).mono fun r hr => ?_
      have hsplit : size = min (d.sectorSize - off % d.sectorSize) size +
          (size - min (d.sectorSize - off % d.sectorSize) size) := by omega
      rw [hr, sector_chunk, ← crc32Update_append, ← bytes_append, ← hsplit]

/-- disk_crc32 returns the CRC-32 of the range. -/
theorem returns_diskCrc32 (hss : 0 < d.sectorSize) (off size : Nat) :
    Returns (· = crc32 (d.bytes off size)) (diskCrc32 d off size) :=
  returns_bind (returns_diskCrc32Loop hss size off size _ (Nat.le_refl size)) fun _ hr =>
    returns_pure (by rw [hr, crc32])

theorem logsIn_validateGptHeader (lba : Nat) : LogsIn (· < d.sectorCount) (validateGptHeader d lba) := by
  unfold validateGptHeader
  refine logsIn_bind (logsIn_readSector lba) fun sector => ?_
  dsimp only
  split
  · exact logsIn_throw _
  split
  · exact logsIn_throw _
  split
  · exact logsIn_throw _
  split
  · exact logsIn_throw _
  split
  · exact logsIn_throw _
  split
  · exact logsIn_throw _
  refine logsIn_bind (logsIn_diskCrc32 _ _) fun crc => ?_
  split
  · exact logsIn_throw _
  · exact logsIn_pure _

theorem logsIn_parseGptEntriesLoop (loc : GptLocation) :
    ∀ (indices : List Nat) (t : PartitionTable), LogsIn (· < d.sectorCount) (parseGptEntriesLoop d loc indices t)
  | [], _ => logsIn_pure _
  | index :: rest, t => by
    simp only [parseGptEntriesLoop]
    split
    · exact logsIn_throw _
    refine logsIn_bind (logsIn_readDiskBytesLoop _ _ _ _) fun bytes => ?_
    split
    · exact logsIn_parseGptEntriesLoop loc rest t
    split
    · exact logsIn_throw _
    split
    · exact logsIn_throw _
    · exact logsIn_bind (logsIn_lift _) fun t' => logsIn_parseGptEntriesLoop loc rest t'

theorem logsIn_gptScan (t : PartitionTable) : LogsIn (· < d.sectorCount) (gptScan d t) := by
  unfold gptScan
  refine logsIn_bind (logsIn_attempt (logsIn_validateGptHeader _)) fun primary => ?_
  refine logsIn_bind (logsIn_attempt (logsIn_validateGptHeader _)) fun backup => ?_
  split
  · exact logsIn_throw _
  · refine logsIn_bind (logsIn_attempt (logsIn_parseGptEntriesLoop _ _ _)) fun r => ?_
    split
    · exact logsIn_pure _
    · split
      · exact logsIn_throw _
      · exact logsIn_parseGptEntriesLoop _ _ _
  · exact logsIn_parseGptEntriesLoop _ _ _

/-- The EBR walk from any EBR and any visited list: induction on the slots
left in the visited array. -/
theorem logsIn_parseEbrLoop_of (s c k : Nat) :
    ∀ (current : Nat) (visited : List Nat) (t : PartitionTable) (next : Nat), partitionMaxCount - visited.length = k →
      LogsIn (· < d.sectorCount) (parseEbrLoop d s c current visited t next) := by
  induction k using Nat.strongRecOn with
  | _ k ih =>
  intro current visited t next hk
  rw [parseEbrLoop]
  split
  · exact logsIn_pure _
  split
  · exact logsIn_throw _
  split
  · exact logsIn_throw _
  rename_i hlen
  refine logsIn_bind (logsIn_readSector _) fun sector => ?_
  split
  · exact logsIn_throw _
  refine logsIn_bind (logsIn_lift _) fun r => ?_
  obtain ⟨t₁, next₁, link⟩ := r
  dsimp only
  split
  · exact logsIn_pure _
  split
  · exact logsIn_throw _
  split
  · exact logsIn_throw _
  split
  · exact logsIn_throw _
  · refine ih _ ?_ _ _ _ _ rfl
    simp only [List.length_append, List.length_singleton]
    omega

theorem logsIn_ebrChains :
    ∀ (ext : List (Nat × Nat)) (t : PartitionTable) (next : Nat), LogsIn (· < d.sectorCount) (ebrChains d ext t next)
  | [], _, _ => logsIn_pure _
  | (s, c) :: rest, t, next => by
    simp only [ebrChains]
    refine logsIn_bind (logsIn_parseEbrLoop_of s c _ s [] t next rfl) fun r => ?_
    obtain ⟨t₁, next₁⟩ := r
    exact logsIn_ebrChains rest t₁ next₁

theorem logsIn_parseMbr (t : PartitionTable) (mbr : Nat → UInt8) : LogsIn (· < d.sectorCount) (parseMbr d t mbr) := by
  unfold parseMbr
  refine logsIn_bind (logsIn_lift _) fun r => ?_
  obtain ⟨t₁, ext⟩ := r
  refine logsIn_bind (logsIn_ebrChains ext t₁ 5) fun r => ?_
  obtain ⟨t₂, _⟩ := r
  dsimp only
  split
  · exact logsIn_pure _
  · exact logsIn_throw _

/-- Every LBA partition_scan reads lies on the disk. -/
theorem logsIn_partitionScan (d : BlockDevice) (allocFails : Bool) :
    LogsIn (· < d.sectorCount) (partitionScan d allocFails) := by
  unfold partitionScan
  split
  · exact logsIn_throw _
  split
  · exact logsIn_throw _
  split
  · exact logsIn_throw _
  refine logsIn_bind (logsIn_readSector 0) fun sector => ?_
  split
  · exact logsIn_throw _
  dsimp only
  split
  · exact logsIn_parseMbr _ _
  split
  · exact logsIn_throw _
  · exact logsIn_gptScan _

end Uinxed.Block
