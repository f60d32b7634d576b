/-
  Block/PartitionTable.lean --- what table_add keeps of a partition table.

  Every partition reaches the table through table_add, and table_add checks
  the new partition against each one already there: another number, another
  unique GUID unless the new one is zero, and, when neither is extended, no
  common sector.  Its callers hand it partitions numbered from 1 whose range,
  unless they are extended, is a non-empty range of the disk (PartGood).
  TableOk collects what follows for the whole table: every partition is good
  and numbered at most PARTITION_MAX_COUNT, any two are Compatible, and there
  are at most PARTITION_MAX_COUNT of them.

  The overlap test sums in uint64_t; for two ranges of a disk of at most
  UINT64_MAX sectors the sums do not wrap, and the test is the intersection
  of the ranges (compatible_of_conflicts).  A property every partition added
  has holds of the whole table (tableAdd_forall).
-/
import Uinxed.Block.Partition

set_option autoImplicit false

namespace Uinxed.Block

/-- A partition a caller of table_add may hand it: numbered from 1, and a
non-extended one is a non-empty range of a disk of limit sectors. -/
def PartGood (limit : Nat) (p : PartitionInfo) : Prop :=
  1 ≤ p.number ∧ (p.extended = false → 0 < p.sectorCount ∧ p.startLba + p.sectorCount ≤ limit)

/-- Two partitions table_add lets stand together: different numbers,
different unique GUIDs unless zero, and disjoint ranges unless one is
extended. -/
def Compatible (p q : PartitionInfo) : Prop :=
  p.number ≠ q.number ∧ (p.uniqueGuid = q.uniqueGuid → guidIsZero p.uniqueGuid = true) ∧
    (p.extended = false → q.extended = false →
      p.startLba + p.sectorCount ≤ q.startLba ∨ q.startLba + q.sectorCount ≤ p.startLba)

/-- The partitions of the table, on a disk of limit sectors. -/
structure TableOk (limit : Nat) (t : PartitionTable) : Prop where
  /-- Every partition is good and numbered at most PARTITION_MAX_COUNT. -/
  good : ∀ p ∈ t.partitions, PartGood limit p ∧ p.number ≤ partitionMaxCount
  /-- Any two partitions are compatible. -/
  pairwise : t.partitions.Pairwise Compatible
  /-- The array holds at most PARTITION_MAX_COUNT partitions. -/
  length_le : t.partitions.length ≤ partitionMaxCount

theorem tableOk_of_nil {limit : Nat} {t : PartitionTable} (h : t.partitions = []) : TableOk limit t :=
  ⟨by simp [h], by simp [h], by simp [h, partitionMaxCount]⟩

theorem u64_of_lt {n : Nat} (h : n < 2 ^ 64) : u64 n = n := Nat.mod_eq_of_lt h

variable {limit : Nat} {t t' : PartitionTable} {p : PartitionInfo}

/-- table_add drops a partition numbered past PARTITION_MAX_COUNT, or adds
one that no partition of the table conflicts with, to its end. -/
theorem tableAdd_cases (h : tableAdd t p = .ok t') :
    t' = t ∨ (p.number ≤ partitionMaxCount ∧ t.partitions.length < partitionMaxCount ∧
      (∀ o ∈ t.partitions, o.conflicts p = false) ∧ t' = { t with partitions := t.partitions ++ [p] }) := by
  unfold tableAdd at h
  split at h
  · cases h
    exact .inl rfl
  split at h
  · cases h
  split at h
  · cases h
  · next hnum hlen hany =>
    cases h
    exact .inr ⟨by omega, by omega, by simpa using hany, rfl⟩

/-- Two good partitions of a disk of at most UINT64_MAX sectors that table_add
does not reject against each other are compatible: the sums of its overlap
test do not wrap. -/
theorem compatible_of_conflicts (hl : limit ≤ uint64Max) {o : PartitionInfo} (ho : PartGood limit o)
    (hp : PartGood limit p) (h : o.conflicts p = false) : Compatible o p := by
  simp only [PartitionInfo.conflicts, Bool.or_eq_false_iff] at h
  obtain ⟨⟨hnum, hguid⟩, hover⟩ := h
  refine ⟨by simpa using hnum, fun heq => ?_, fun hoe hpe => ?_⟩
  · simp only [heq, beq_self_eq_true, Bool.and_true, Bool.not_eq_false'] at hguid
    rw [heq]
    exact hguid
  · have ho' := ho.2 hoe
    have hp' := hp.2 hpe
    unfold uint64Max at hl
    rw [u64_of_lt (by omega), u64_of_lt (by omega)] at hover
    simp only [hoe, hpe, Bool.or_self, Bool.not_false, Bool.true_and, Bool.and_eq_false_iff,
      decide_eq_false_iff_not] at hover
    omega

theorem TableOk.tableAdd (h : TableOk limit t) (hl : limit ≤ uint64Max) (hp : PartGood limit p)
    (ha : tableAdd t p = .ok t') : TableOk limit t' := by
  rcases tableAdd_cases ha with rfl | ⟨hnum, hlen, hcon, rfl⟩
  · exact h
  refine ⟨fun q hq => ?_, ?_, ?_⟩
  · rcases List.mem_append.mp hq with hq | hq
    · exact h.good q hq
    · rw [List.mem_singleton.mp hq]
      exact ⟨hp, hnum⟩
  · refine List.pairwise_append.mpr ⟨h.pairwise, List.pairwise_singleton _ _, fun o ho q hq => ?_⟩
    rw [List.mem_singleton.mp hq]
    exact compatible_of_conflicts hl (h.good o ho).1 hp (hcon o ho)
  · simp only [List.length_append, List.length_singleton]
    omega

/-- A property of every partition added is one of every partition of the
table. -/
theorem tableAdd_forall {P : PartitionInfo → Prop} (h : ∀ q ∈ t.partitions, P q) (hp : P p)
    (ha : tableAdd t p = .ok t') : ∀ q ∈ t'.partitions, P q := by
  rcases tableAdd_cases ha with rfl | ⟨-, -, -, rfl⟩
  · exact h
  intro q hq
  rcases List.mem_append.mp hq with hq | hq
  · exact h q hq
  · rw [List.mem_singleton.mp hq]
    exact hp

/-- table_add changes the partitions only. -/
theorem tableAdd_type (ha : tableAdd t p = .ok t') : t'.type = t.type := by
  rcases tableAdd_cases ha with rfl | ⟨-, -, -, rfl⟩ <;> rfl

end Uinxed.Block
