/-
  Block/PartitionSound.lean --- the tables partition_scan returns.

  A GPT table comes from the entry array of one header that
  validate_gpt_header accepted: the header decodes to the location, its own
  CRC-32 and that of the entry array are the ones stored, and its usable range
  lies on the disk (GptHeaderVerified).  parse_gpt_entries keeps every entry
  inside that range (GptOk).  An MBR table holds the primaries, numbered 1 to
  4, and the logical partitions of the chain of each extended entry, numbered
  from 5, each checked against the range of that entry (MbrOk).  Both kinds
  keep TableOk, through table_add.

  partition_scan_sound: every LBA a scan reads lies on the disk, and a table
  it returns has unique numbers in 1..255, non-empty non-extended partitions
  inside the disk and pairwise disjoint, distinct non-zero unique GUIDs, its
  logical partitions inside their extended entry and its GPT partitions
  inside the usable range of a verified header.
-/
import Uinxed.Block.PartitionScan
import Uinxed.Block.PartitionTable

set_option autoImplicit false

namespace Uinxed.Block

open TraceExcept

/-! ## What the paths guarantee -/

/-- A GPT header at lba that validate_gpt_header accepts with location loc. -/
structure GptHeaderVerified (d : BlockDevice) (lba : Nat) (loc : GptLocation) : Prop where
  /-- The location is the decoding of the header. -/
  decoded : loc = { gptDecodeHeader (d.sector lba) with entriesBytes := loc.entriesBytes, valid := true }
  signature : (List.range 8).map (d.sector lba) = gptSignature
  /-- The header's stored CRC-32 is that of its bytes, with the field zeroed. -/
  header_crc :
    loadLe32 (d.sector lba) 16 = (crc32 (gptHeaderCrcBytes (d.sector lba) (loadLe32 (d.sector lba) 12))).toNat
  entries_bytes : loc.entriesBytes = loc.entryCount * loc.entrySize
  /-- The stored CRC-32 of the entry array is that of its bytes on the disk. -/
  entries_crc : loc.entriesCrc = (crc32 (d.bytes (loc.entriesLba * d.sectorSize) loc.entriesBytes)).toNat
  usable : loc.firstUsableLba ≤ loc.lastUsableLba ∧ loc.lastUsableLba < d.sectorCount

/-- A partition inside the usable range of a verified header at the primary or
the backup LBA. -/
def InUsableRange (d : BlockDevice) (p : PartitionInfo) : Prop :=
  ∃ lba loc, (lba = gptPrimaryLba ∨ lba = d.sectorCount - 1) ∧ GptHeaderVerified d lba loc ∧
    loc.firstUsableLba ≤ p.startLba ∧ p.startLba + p.sectorCount ≤ loc.lastUsableLba + 1

/-- A slot of an MBR with an extended type, start and count. -/
def IsExtendedEntry (mbr : Nat → UInt8) (e : Nat × Nat) : Prop :=
  ∃ slot < mbrPartitionCount, mbrIsExtended (mbrEntry mbr slot 4) = true ∧
    loadLe32 (mbrEntry mbr slot) 8 = e.1 ∧ loadLe32 (mbrEntry mbr slot) 12 = e.2

/-- A partition inside the range of an extended entry of the disk's MBR. -/
def LogicalInExtended (d : BlockDevice) (p : PartitionInfo) : Prop :=
  ∃ e, IsExtendedEntry (d.sector 0) e ∧ e.1 ≤ p.startLba ∧ p.startLba + p.sectorCount ≤ e.1 + e.2

/-- A table of the MBR path. -/
structure MbrOk (d : BlockDevice) (t : PartitionTable) : Prop where
  table : TableOk d.sectorCount t
  type : t.type = .mbr
  logical : ∀ p ∈ t.partitions, 5 ≤ p.number → LogicalInExtended d p

/-- A table of the GPT path. -/
structure GptOk (d : BlockDevice) (t : PartitionTable) : Prop where
  table : TableOk d.sectorCount t
  type : t.type = .gpt
  usable : ∀ p ∈ t.partitions, InUsableRange d p

/-- What partition_scan guarantees of a table it returns. -/
structure ScanOk (d : BlockDevice) (t : PartitionTable) : Prop where
  table : TableOk d.sectorCount t
  logical : t.type = .mbr → ∀ p ∈ t.partitions, 5 ≤ p.number → LogicalInExtended d p
  usable : t.type = .gpt → ∀ p ∈ t.partitions, InUsableRange d p

variable {d : BlockDevice} {t t' : PartitionTable} {p : PartitionInfo}

theorem MbrOk.tableAdd (h : MbrOk d t) (hl : d.sectorCount ≤ uint64Max) (hp : PartGood d.sectorCount p)
    (hq : 5 ≤ p.number → LogicalInExtended d p) (ha : tableAdd t p = .ok t') : MbrOk d t' :=
  ⟨h.table.tableAdd hl hp ha, (tableAdd_type ha).trans h.type, tableAdd_forall h.logical hq ha⟩

theorem GptOk.tableAdd (h : GptOk d t) (hl : d.sectorCount ≤ uint64Max) (hp : PartGood d.sectorCount p)
    (hq : InUsableRange d p) (ha : tableAdd t p = .ok t') : GptOk d t' :=
  ⟨h.table.tableAdd hl hp ha, (tableAdd_type ha).trans h.type, tableAdd_forall h.usable hq ha⟩

theorem ScanOk.of_mbr (h : MbrOk d t) : ScanOk d t :=
  ⟨h.table, fun _ => h.logical, fun hg => absurd (h.type.symm.trans hg) (by decide)⟩

theorem ScanOk.of_gpt (h : GptOk d t) : ScanOk d t :=
  ⟨h.table, fun hm => absurd (h.type.symm.trans hm) (by decide), fun _ => h.usable⟩

theorem rangeValid_eq_true {start count limit : Nat} :
    rangeValid start count limit = true ↔ count ≠ 0 ∧ start < limit ∧ count ≤ limit - start := by
  simp [rangeValid, and_assoc]

/-! ## GPT -/

/-- The location checks of validate_gpt_header keep the usable range on the
disk. -/
theorem gptLocationError_usable {lba : Nat} {loc : GptLocation} (h : gptLocationError d lba loc = none) :
    loc.firstUsableLba ≤ loc.lastUsableLba ∧ loc.lastUsableLba < d.sectorCount := by
  unfold gptLocationError at h
  split at h
  · cases h
  split at h
  · cases h
  · next _ hrange => omega

/-- validate_gpt_header accepts only a header whose CRC-32s verify, and
decodes it. -/
theorem returns_validateGptHeader (hss : 0 < d.sectorSize) (lba : Nat) :
    Returns (GptHeaderVerified d lba) (validateGptHeader d lba) := by
  unfold validateGptHeader
  refine returns_bind (returns_readSector lba) fun sector hsector => ?_
  subst hsector
  dsimp only
  split
  · exact returns_throw _
  rename_i hsig
  split
  · exact returns_throw _
  split
  · exact returns_throw _
  split
  · exact returns_throw _
  rename_i hcrc
  split
  · exact returns_throw _
  split
  · exact returns_throw _
  rename_i hloc
  refine returns_bind (returns_diskCrc32 hss _ _) fun crc hcrc' => ?_
  subst hcrc'
  split
  · exact returns_throw _
  rename_i hentries
  exact returns_pure ⟨rfl, not_not.mp hsig, not_not.mp hcrc, rfl, (not_not.mp hentries).symm,
    gptLocationError_usable hloc⟩

theorem gptOk_of_nil (hp : t.partitions = []) (ht : t.type = .gpt) : GptOk d t :=
  ⟨tableOk_of_nil hp, ht, by simp [hp]⟩

/-- parse_gpt_entries adds only entries inside the usable range of the
header it was given. -/
theorem returns_parseGptEntriesLoop (hl : d.sectorCount ≤ uint64Max) {lba : Nat} {loc : GptLocation}
    (hlba : lba = gptPrimaryLba ∨ lba = d.sectorCount - 1) (hv : GptHeaderVerified d lba loc) :
    ∀ (indices : List Nat) (t : PartitionTable), GptOk d t → Returns (GptOk d) (parseGptEntriesLoop d loc indices t)
  | [], t, ht => returns_pure ht
  | index :: rest, t, ht => by
    simp only [parseGptEntriesLoop]
    split
    · exact returns_throw _
    refine returns_bind (P := fun _ => True) (fun _ _ _ _ => trivial) fun bytes _ => ?_
    split
    · exact returns_parseGptEntriesLoop hl hlba hv rest t ht
    split
    · exact returns_throw _
    split
    · exact returns_throw _
    rename_i hrange
    -- the entry's last LBA is on the disk, so end - start + 1 does not wrap
    have hlast := hv.usable.2
    have hl' : d.sectorCount < 2 ^ 64 := by
      unfold uint64Max at hl
      omega
    refine returns_bind (returns_lift fun t' ha => ht.tableAdd hl ⟨by simp, fun _ => ?_⟩ ⟨lba, loc, hlba, hv, ?_⟩ ha)
      fun t' ht' => returns_parseGptEntriesLoop hl hlba hv rest t' ht'
    · dsimp only
      rw [u64_of_lt (by omega)]
      omega
    · dsimp only
      rw [u64_of_lt (by omega)]
      omega

theorem returns_parseGptEntries (hl : d.sectorCount ≤ uint64Max) {lba : Nat} {loc : GptLocation}
    (hlba : lba = gptPrimaryLba ∨ lba = d.sectorCount - 1) (hv : GptHeaderVerified d lba loc) (ht : GptOk d t) :
    Returns (GptOk d) (parseGptEntries d t loc) :=
  returns_parseGptEntriesLoop hl hlba hv _ t ht

/-- The GPT path returns a table from the primary header, or from the backup
one. -/
theorem returns_gptScan (hss : 0 < d.sectorSize) (hl : d.sectorCount ≤ uint64Max) (ht : t.partitions = []) :
    Returns (GptOk d) (gptScan d t) := by
  unfold gptScan
  refine returns_bind (returns_attempt (returns_validateGptHeader hss _)) fun primary hp => ?_
  refine returns_bind (returns_attempt (returns_validateGptHeader hss _)) fun backup hb => ?_
  split
  · exact returns_throw _
  · refine returns_bind (returns_attempt (returns_parseGptEntries hl (.inl rfl) (hp _ rfl)
      (gptOk_of_nil ht rfl))) fun r hr => ?_
    split
    · exact returns_pure (hr _ rfl)
    · split
      · exact returns_throw _
      · exact returns_parseGptEntries hl (.inr rfl) (hb _ rfl) (gptOk_of_nil rfl rfl)
  · exact returns_parseGptEntries hl (.inr rfl) (hb _ rfl) (gptOk_of_nil ht rfl)

/-! ## MBR -/

/-- validate_mbr_entry reads the start and count of the entry, and accepts an
entry that is not empty only with a type and a range of the disk. -/
theorem validateMbrEntry_ok {entry : Nat → UInt8} {n start count : Nat}
    (h : validateMbrEntry entry n = .ok (start, count)) :
    start = loadLe32 entry 8 ∧ count = loadLe32 entry 12 ∧
      (entry 4 = 0 ∧ count = 0 ∨ entry 4 ≠ 0 ∧ count ≠ 0 ∧ start + count ≤ n) := by
  unfold validateMbrEntry at h
  dsimp only at h
  split at h
  · cases h
  split at h
  · next hz =>
    cases h
    exact ⟨rfl, rfl, .inl hz⟩
  split at h
  · cases h
  · next hr =>
    cases h
    simp only [Bool.not_eq_true', not_or, Bool.not_eq_false] at hr
    obtain ⟨h4, hr⟩ := hr
    rw [rangeValid_eq_true] at hr
    exact ⟨rfl, rfl, .inr ⟨h4, hr.1, by omega⟩⟩

theorem mbrOk_of_nil (hp : t.partitions = []) (ht : t.type = .mbr) : MbrOk d t :=
  ⟨tableOk_of_nil hp, ht, by simp [hp]⟩

/-- The primary slot loop adds partitions numbered below 5, and collects
extended entries of the MBR. -/
theorem mbrPrimaries_spec (hl : d.sectorCount ≤ uint64Max) (mbr : Nat → UInt8) :
    ∀ (slots : List Nat) (t : PartitionTable) (ext : List (Nat × Nat)) {r : PartitionTable × List (Nat × Nat)},
      (∀ s ∈ slots, s < mbrPartitionCount) → MbrOk d t → (∀ e ∈ ext, IsExtendedEntry mbr e) →
      mbrPrimaries d mbr slots t ext = .ok r → MbrOk d r.1 ∧ ∀ e ∈ r.2, IsExtendedEntry mbr e
  | [], t, ext, r, _, ht, he, h => by
    cases h
    exact ⟨ht, he⟩
  | slot :: rest, t, ext, r, hs, ht, he, h => by
    simp only [mbrPrimaries] at h
    obtain ⟨⟨start, count⟩, hv, h⟩ := except_bind_ok h
    obtain ⟨hstart, hcount, hentry⟩ := validateMbrEntry_ok hv
    have hslot : slot < mbrPartitionCount := hs slot List.mem_cons_self
    have hrest : ∀ s ∈ rest, s < mbrPartitionCount := fun s hm => hs s (List.mem_cons_of_mem _ hm)
    -- a primary is numbered slot + 1, below the logical partitions
    have hnum : ¬5 ≤ slot + 1 := by
      unfold mbrPartitionCount at hslot
      omega
    dsimp only at h
    split at h
    · exact mbrPrimaries_spec hl mbr rest t ext hrest ht he h
    rename_i hne
    split at h
    · next hx =>
      obtain ⟨t₁, ha, h⟩ := except_bind_ok h
      refine mbrPrimaries_spec hl mbr rest t₁ _ hrest
        (ht.tableAdd hl ⟨by simp, by simp⟩ (fun h5 => absurd h5 hnum) ha) (fun e hm => ?_) h
      rcases List.mem_append.mp hm with hm | hm
      · exact he e hm
      · rw [List.mem_singleton.mp hm]
        exact ⟨slot, hslot, hx, hstart.symm, hcount.symm⟩
    · obtain ⟨t₁, ha, h⟩ := except_bind_ok h
      refine mbrPrimaries_spec hl mbr rest t₁ ext hrest
        (ht.tableAdd hl ⟨by simp, fun _ => ?_⟩ (fun h5 => absurd h5 hnum) ha) he h
      rcases hentry with hz | ⟨-, hc, hin⟩
      · exact absurd hz hne
      · exact ⟨Nat.pos_of_ne_zero hc, hin⟩

/-- The slot loop of an EBR adds logical partitions numbered from 5 inside
the extended entry of the chain. -/
theorem ebrSlots_spec (hl : d.sectorCount ≤ uint64Max) {sector : Nat → UInt8} {current s c : Nat}
    (hext : IsExtendedEntry (d.sector 0) (s, c)) :
    ∀ (slots : List Nat) (t : PartitionTable) (next : Nat) (link : Option Nat) {r : PartitionTable × Nat × Option Nat},
      MbrOk d t → 5 ≤ next → ebrSlots d sector current s c slots t next link = .ok r → MbrOk d r.1 ∧ 5 ≤ r.2.1
  | [], t, next, link, r, ht, hn, h => by
    cases h
    exact ⟨ht, hn⟩
  | slot :: rest, t, next, link, r, ht, hn, h => by
    simp only [ebrSlots] at h
    split at h
    · exact ebrSlots_spec hl hext rest t next link ht hn h
    split at h
    · cases h
    split at h
    · cases h
    split at h
    · split at h
      · cases h
      · exact ebrSlots_spec hl hext rest t next _ ht hn h
    split at h
    · cases h
    split at h
    · cases h
    rename_i hrange
    split at h
    · cases h
    rename_i hin
    obtain ⟨t₁, ha, h⟩ := except_bind_ok h
    simp only [Bool.not_eq_true', Bool.not_eq_false, rangeValid_eq_true] at hrange
    refine ebrSlots_spec hl hext rest t₁ (next + 1) link
      (ht.tableAdd hl ⟨by simp; omega, fun _ => ⟨by simp; omega, by simp; omega⟩⟩
        (fun _ => ⟨(s, c), hext, by simp; omega, by simp; omega⟩) ha) (by omega) h

/-- The EBR walk from any EBR and any visited list: induction on the slots
left in the visited array. -/
theorem returns_parseEbrLoop_of (hl : d.sectorCount ≤ uint64Max) {s c : Nat}
    (hext : IsExtendedEntry (d.sector 0) (s, c)) (k : Nat) :
    ∀ (current : Nat) (visited : List Nat) (t : PartitionTable) (next : Nat),
      partitionMaxCount - visited.length = k → MbrOk d t → 5 ≤ next →
      Returns (fun r : PartitionTable × Nat => MbrOk d r.1 ∧ 5 ≤ r.2) (parseEbrLoop d s c current visited t next) := by
  induction k using Nat.strongRecOn with
  | _ k ih =>
  intro current visited t next hk ht hn
  rw [parseEbrLoop]
  split
  · exact returns_pure ⟨ht, hn⟩
  split
  · exact returns_throw _
  split
  · exact returns_throw _
  rename_i hlen
  refine returns_bind (P := fun _ => True) (fun _ _ _ _ => trivial) fun sector _ => ?_
  split
  · exact returns_throw _
  refine returns_bind (returns_lift fun r hr => ebrSlots_spec hl hext _ t next none ht hn hr) fun r hr => ?_
  obtain ⟨t₁, next₁, link⟩ := r
  dsimp only
  split
  · exact returns_pure hr
  split
  · exact returns_throw _
  split
  · exact returns_throw _
  split
  · exact returns_throw _
  · -- the next EBR is walked with one more LBA visited
    refine ih _ ?_ _ _ _ _ rfl hr.1 hr.2
    simp only [List.length_append, List.length_singleton]
    omega

theorem returns_parseEbrChain (hl : d.sectorCount ≤ uint64Max) {s c : Nat} (hext : IsExtendedEntry (d.sector 0) (s, c))
    (t : PartitionTable) (next : Nat) (ht : MbrOk d t) (hn : 5 ≤ next) :
    Returns (fun r : PartitionTable × Nat => MbrOk d r.1 ∧ 5 ≤ r.2) (parseEbrChain d t s c next) :=
  returns_parseEbrLoop_of hl hext _ s [] t next rfl ht hn

theorem returns_ebrChains (hl : d.sectorCount ≤ uint64Max) :
    ∀ (ext : List (Nat × Nat)) (t : PartitionTable) (next : Nat), (∀ e ∈ ext, IsExtendedEntry (d.sector 0) e) →
      MbrOk d t → 5 ≤ next → Returns (fun r : PartitionTable × Nat => MbrOk d r.1 ∧ 5 ≤ r.2) (ebrChains d ext t next)
  | [], _, _, _, ht, hn => returns_pure ⟨ht, hn⟩
  | (s, c) :: rest, t, next, he, ht, hn => by
    simp only [ebrChains]
    refine returns_bind (returns_parseEbrChain hl (he _ List.mem_cons_self) t next ht hn) fun r hr => ?_
    obtain ⟨t₁, next₁⟩ := r
    exact returns_ebrChains hl rest t₁ next₁ (fun e hm => he e (List.mem_cons_of_mem _ hm)) hr.1 hr.2

/-- The MBR path returns a table of the MBR of sector 0. -/
theorem returns_parseMbr (hl : d.sectorCount ≤ uint64Max) (ht : t.partitions = []) :
    Returns (MbrOk d) (parseMbr d t (d.sector 0)) := by
  unfold parseMbr
  have hslots : ∀ s ∈ [0, 1, 2, 3], s < mbrPartitionCount := by decide
  refine returns_bind (returns_lift fun r hr => mbrPrimaries_spec hl _ _ _ _ hslots (mbrOk_of_nil (t := { t with type := .mbr, mbrDiskSignature := _ }) ht rfl)
    (fun _ he => absurd he List.not_mem_nil) hr) fun r hr => ?_
  obtain ⟨t₁, ext⟩ := r
  refine returns_bind (returns_ebrChains hl ext t₁ 5 hr.2 hr.1 (Nat.le_refl 5)) fun r hr' => ?_
  obtain ⟨t₂, _⟩ := r
  dsimp only
  split
  · exact returns_pure hr'.1
  · exact returns_throw _

/-! ## partition_scan -/

/-- partition_scan returns a table of one of the two paths. -/
theorem returns_partitionScan (d : BlockDevice) (allocFails : Bool) :
    Returns (fun t => MbrOk d t ∨ GptOk d t) (partitionScan d allocFails) := by
  unfold partitionScan
  split
  · exact returns_throw _
  rename_i hgeom
  split
  · exact returns_throw _
  rename_i hover
  -- the checks leave a positive sector size and at most UINT64_MAX sectors
  have hss : 0 < d.sectorSize := by omega
  have hl : d.sectorCount ≤ uint64Max := Nat.le_trans (Nat.le_of_not_lt hover) (Nat.div_le_self _ _)
  split
  · exact returns_throw _
  refine returns_bind (returns_readSector 0) fun sector hsector => ?_
  subst hsector
  split
  · exact returns_throw _
  dsimp only
  split
  · exact (returns_parseMbr hl rfl).mono fun _ h => .inl h
  split
  · exact returns_throw _
  · exact (returns_gptScan hss hl rfl).mono fun _ h => .inr h

/-- A disk of 512-byte sectors whose MBR holds one partition at LBA 1 of two
sectors: the scan returns a table after reading sector 0 only. -/
example : ∃ t, (partitionScan ⟨512, 8, fun i => if i = 510 then 0x55 else if i = 511 then 0xAA
    else if i = 450 then 0x83 else if i = 454 then 1 else if i = 458 then 2 else 0, fun _ => none⟩ false).exec [] =
      (.ok t, [0]) :=
  ⟨_, rfl⟩

end Uinxed.Block
