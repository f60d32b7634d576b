/-
  Sched/Average.lean --- avg_vruntime and the eligibility of the average.

  avg_vruntime divides the weighted sum of the queued tasks, plus the running
  task's term, by their load with a left bias, and adds the quotient to
  min_vruntime saturating at 0.  When the load is below 2^63, the numerator
  lowered by its bias fits in int64 and the sum stays below 2^64, the result
  is min_vruntime plus the floor of the exact quotient, saturated at 0, and
  entity_eligible_vruntime accepts it exactly when the floor is not
  saturated: the floor times the load never exceeds the sum.  Without those
  bounds the average can wrap, and a saturated average is not eligible.
-/
import Uinxed.Sched.Eevdf
import Uinxed.Lib.SignedArith

set_option autoImplicit false

namespace Uinxed.Sched

open SignedArith

/-- add_signed_vruntime is base + offset saturated at 0, when the sum stays
below 2^64. -/
theorem addSignedVruntime_toNat (base : UInt64) (offset : Int64)
    (h : base.toNat + offset.toInt < 2 ^ 64) :
    ((addSignedVruntime base offset).toNat : Int) = max 0 (base.toNat + offset.toInt) := by
  unfold addSignedVruntime
  by_cases hpos : offset ≥ 0
  · have hpos' : 0 ≤ offset.toInt := Int64.le_iff_toInt_le.mp hpos
    rw [if_pos hpos, UInt64.toNat_add, Int64.toNat_toUInt64_of_le hpos, Nat.mod_eq_of_lt]
    · rw [← Int64.toNat_toInt]
      omega
    · rw [← Int64.toNat_toInt]
      omega
  · have hneg : offset.toInt < 0 := by
      have h0 : ¬ (0 : Int64) ≤ offset := hpos
      rw [Int64.le_iff_toInt_le] at h0
      simpa using h0
    -- the magnitude -offset, computed without the overflow of negating INT64_MIN
    have hm : ((-(offset + 1)).toUInt64 + 1).toNat = (-offset.toInt).toNat := by
      have h₁ : (-(offset + 1)).toInt = -offset.toInt - 1 := by
        rw [Int64.toInt_neg, Int64.toInt_add]
        have := Int64.le_toInt offset
        have hb : (offset.toInt + 1).bmod (2 ^ 64) = offset.toInt + 1 :=
          Int.bmod_eq_of_le (by omega) (by omega)
        simp only [Int64.toInt_one, hb]
        rw [Int.bmod_eq_of_le (by omega) (by omega)]
        omega
      have h₂ : 0 ≤ -(offset + 1) := by
        rw [Int64.le_iff_toInt_le, h₁]
        simp
        omega
      rw [UInt64.toNat_add, Int64.toNat_toUInt64_of_le h₂, ← Int64.toNat_toInt, h₁]
      have := Int64.le_toInt offset
      simp
      omega
    simp only [if_neg hpos]
    split_ifs with hbig
    · rw [gt_iff_lt, UInt64.lt_iff_toNat_lt, hm] at hbig
      simp
      omega
    · rw [gt_iff_lt, UInt64.lt_iff_toNat_lt, hm] at hbig
      rw [UInt64.toNat_sub_of_le _ _ (by rw [UInt64.le_iff_toNat_le, hm]; omega), hm]
      omega

/-! ## The weighted average -/

/-- The int64 numerator of avg_vruntime before its bias: avg_vruntime plus the
running task's term when it counts. -/
def avgNumerator (s : SchedState) (c : Nat) : Int64 :=
  let rq := s.rqs c
  let curr := s.tasks rq.curr
  if currCounts s c then
    rq.avgVruntime + (curr.vruntime - rq.minVruntime).toInt64 * curr.weight.toUInt64.toInt64
  else rq.avgVruntime

/-- The load avg_vruntime divides by. -/
def combinedLoad (s : SchedState) (c : Nat) : UInt64 :=
  if currCounts s c then (s.rqs c).avgLoad + (s.tasks (s.rqs c).curr).weight.toUInt64
  else (s.rqs c).avgLoad

/-- The numerator as an exact integer. -/
def combinedSum (s : SchedState) (c : Nat) : Int :=
  let rq := s.rqs c
  let curr := s.tasks rq.curr
  if currCounts s c then
    rq.avgVruntime.toInt + (curr.vruntime - rq.minVruntime).toInt64.toInt * curr.weight.toNat
  else rq.avgVruntime.toInt

variable (s : SchedState) (c : Nat)

theorem avgVruntime_eq : avgVruntime s c =
    if combinedLoad s c = 0 then (s.rqs c).minVruntime
    else addSignedVruntime (s.rqs c).minVruntime
      ((if avgNumerator s c < 0 then avgNumerator s c - (combinedLoad s c - 1).toInt64
        else avgNumerator s c) / (combinedLoad s c).toInt64) := rfl

variable {s c}

/-- The int64 numerator is the exact one when that fits in int64. -/
theorem avgNumerator_toInt (hfit : -2 ^ 63 ≤ combinedSum s c ∧ combinedSum s c < 2 ^ 63) :
    (avgNumerator s c).toInt = combinedSum s c := by
  have hw : (s.tasks (s.rqs c).curr).weight.toUInt64.toInt64.toInt =
      (s.tasks (s.rqs c).curr).weight.toNat := by
    rw [toInt_toInt64_of_lt (by rw [UInt32.toNat_toUInt64]; have := UInt32.toNat_lt (s.tasks (s.rqs c).curr).weight; omega),
      UInt32.toNat_toUInt64]
  unfold avgNumerator combinedSum at *
  by_cases hcc : currCounts s c = true
  · simp only [hcc, if_true] at hfit ⊢
    rw [Int64.toInt_add, Int64.toInt_mul, hw, Int.add_bmod_bmod,
      Int.bmod_eq_of_le (by omega) (by omega)]
  · simp only [hcc, if_false, Bool.false_eq_true] at hfit ⊢

/-- With the idle task not running, the running task counts in the average
exactly when it counts for eligibility. -/
theorem currCounts_iff (hidle : (s.tasks (s.rqs c).idle).state ≠ .running) :
    currCounts s c = true ↔ (s.tasks (s.rqs c).curr).state = .running := by
  unfold currCounts
  constructor
  · intro h
    simp only [Bool.and_eq_true, beq_iff_eq] at h
    exact h.1
  · intro h
    have hne : (s.rqs c).curr ≠ (s.rqs c).idle := fun e => hidle (e ▸ h)
    simp [h, hne]

/-- entity_eligible_vruntime compares the key times the combined load with the
combined sum. -/
theorem entityEligibleVruntime_iff (hidle : (s.tasks (s.rqs c).idle).state ≠ .running)
    (v : UInt64) :
    entityEligibleVruntime s c v = true ↔
      (v - (s.rqs c).minVruntime).toInt64.toInt * (combinedLoad s c).toNat ≤ combinedSum s c := by
  unfold entityEligibleVruntime combinedLoad combinedSum
  by_cases hr : (s.tasks (s.rqs c).curr).state = .running
  · have hcc : currCounts s c = true := (currCounts_iff hidle).mpr hr
    simp [hr, hcc]
  · have hcc : ¬ currCounts s c = true := fun h => hr ((currCounts_iff hidle).mp h)
    simp [hr, hcc]

/-- avg_vruntime is min_vruntime plus the floor of the combined sum over the
combined load, saturated at 0, when the load is below 2^63, the numerator
lowered by its bias fits in int64 and the result stays below 2^64; a task
placed there is eligible exactly when the floor is not saturated. -/
theorem avgVruntime_floor_eligible (hidle : (s.tasks (s.rqs c).idle).state ≠ .running)
    (hload : 0 < (combinedLoad s c).toNat) (hload' : (combinedLoad s c).toNat < 2 ^ 63)
    (hfit : -2 ^ 63 + ((combinedLoad s c).toNat - 1) ≤ combinedSum s c ∧ combinedSum s c < 2 ^ 63)
    (htop : (s.rqs c).minVruntime.toNat + combinedSum s c / (combinedLoad s c).toNat < 2 ^ 64) :
    ((avgVruntime s c).toNat : Int) =
        max 0 ((s.rqs c).minVruntime.toNat + combinedSum s c / (combinedLoad s c).toNat) ∧
      (entityEligibleVruntime s c (avgVruntime s c) = true ↔
        0 ≤ (s.rqs c).minVruntime.toNat + combinedSum s c / (combinedLoad s c).toNat) := by
  have hnum := avgNumerator_toInt (s := s) (c := c) ⟨by omega, hfit.2⟩
  -- the biased int64 quotient is the floor of the exact one
  have hq := biased_div_toInt (avgNumerator s c) hload hload' (by rw [hnum]; exact hfit.1)
  rw [hnum] at hq
  have hne : combinedLoad s c ≠ 0 := fun h => by
    rw [h] at hload
    exact absurd hload (by decide)
  rw [avgVruntime_eq, if_neg hne]
  generalize (if avgNumerator s c < 0 then avgNumerator s c - (combinedLoad s c - 1).toInt64
    else avgNumerator s c) / (combinedLoad s c).toInt64 = Q at hq
  have hV := addSignedVruntime_toNat (s.rqs c).minVruntime Q (by rw [hq]; exact htop)
  rw [hq] at hV
  refine ⟨hV, ?_⟩
  rw [entityEligibleVruntime_iff hidle]
  generalize combinedSum s c = A at hfit htop hV ⊢
  generalize (combinedLoad s c).toNat = L at hload hload' hfit htop hV ⊢
  -- the floor q of A / L: q * L ≤ A < (q + 1) * L, and q fits in int64
  have hfl₁ : A / L * L ≤ A := Int.ediv_mul_le A (by omega)
  have hfl₂ : A < (A / L + 1) * L := Int.lt_ediv_add_one_mul_self A (by omega)
  have hq₁ : -2 ^ 63 ≤ A / L := (Int.le_ediv_iff_mul_le (by omega)).mpr (by nlinarith)
  have hq₂ : A / L < 2 ^ 63 := by nlinarith
  generalize A / L = q at hfl₁ hfl₂ hq₁ hq₂ htop hV ⊢
  by_cases hsat : 0 ≤ ((s.rqs c).minVruntime.toNat : Int) + q
  · -- unsaturated: the key of V is the floor itself
    rw [max_eq_right hsat] at hV
    rw [toInt_toInt64_sub hq₁ hq₂ hV]
    exact ⟨fun _ => hsat, fun _ => hfl₁⟩
  · -- saturated at 0: the key of V is -min_vruntime, above the floor
    rw [max_eq_left (by omega)] at hV
    rw [toInt_toInt64_sub (q := -((s.rqs c).minVruntime.toNat : Int)) (by omega) (by omega)
      (by omega)]
    refine ⟨fun h => absurd ?_ hsat, fun h => absurd h hsat⟩
    nlinarith

/-- Two queued tasks of weight 1024 at min_vruntime 100, one a unit behind it
and one at it: the average 99.5 floors to 99, where a truncating division
would give 100, and a task placed there is eligible. -/
theorem avgVruntime_floor_eligible_two_tasks :
    ∃ s : SchedState, ((avgVruntime s 0).toNat : Int) = 99 ∧
      entityEligibleVruntime s 0 (avgVruntime s 0) = true :=
  let s : SchedState :=
    { tasks := fun t => if t = 1 then { SchedTask.alloc with vruntime := 99 }
        else if t = 2 then { SchedTask.alloc with vruntime := 100 } else SchedTask.idleTask 0,
      rqs := fun _ => { EevdfRq.boot 0 with
        timeline := [1, 2], nrRunning := 2, avgVruntime := -1024, avgLoad := 2048, minVruntime := 100 },
      cpuSchedulerCount := 1, ticks := 0 }
  have h := avgVruntime_floor_eligible (s := s) (c := 0) (by decide) (by decide) (by decide)
    (by decide) (by decide)
  ⟨s, by rw [h.1]; decide, h.2.mpr (by decide)⟩

/-- Without the extra bounds the floor and the eligibility fail.  A queued task
one unit below min_vruntime = 0 (vruntime 2^64 - 1) puts the average below 0:
V saturates to 0, which lies above the average and is not eligible.  A
numerator of -2^63 + 1 over a load of 3 wraps when lowered by the bias, and
V lands far to the right of the average.  A min_vruntime of 2^64 - 1 with an
average 5 ahead wraps V to 4. -/
theorem avgVruntime_floor_fails :
    (∃ s : SchedState, (s.tasks (s.rqs 0).idle).state ≠ .running ∧
      0 < (combinedLoad s 0).toNat ∧ -2 ^ 63 ≤ combinedSum s 0 ∧ combinedSum s 0 < 2 ^ 63 ∧
      entityEligibleVruntime s 0 (avgVruntime s 0) = false) ∧
    (∃ s : SchedState, (s.tasks (s.rqs 0).idle).state ≠ .running ∧
      0 < (combinedLoad s 0).toNat ∧ -2 ^ 63 ≤ combinedSum s 0 ∧ combinedSum s 0 < 2 ^ 63 ∧
      ((avgVruntime s 0).toNat : Int) ≠
        max 0 ((s.rqs 0).minVruntime.toNat + combinedSum s 0 / (combinedLoad s 0).toNat)) ∧
    (∃ s : SchedState, (s.tasks (s.rqs 0).idle).state ≠ .running ∧
      0 < (combinedLoad s 0).toNat ∧ -2 ^ 63 ≤ combinedSum s 0 ∧ combinedSum s 0 < 2 ^ 63 ∧
      ((avgVruntime s 0).toNat : Int) ≠
        max 0 ((s.rqs 0).minVruntime.toNat + combinedSum s 0 / (combinedLoad s 0).toNat)) :=
  ⟨⟨{ tasks := fun t => if t = 1 then { SchedTask.alloc with vruntime := 18446744073709551615 }
          else SchedTask.idleTask 0,
        rqs := fun _ => { EevdfRq.boot 0 with
          timeline := [1], nrRunning := 1, avgVruntime := -1024, avgLoad := 1024 },
        cpuSchedulerCount := 1, ticks := 0 }, by decide⟩,
   ⟨{ tasks := fun _ => SchedTask.idleTask 0,
      rqs := fun _ => { EevdfRq.boot 0 with
        avgVruntime := -9223372036854775807, avgLoad := 3, minVruntime := 9223372036854775808 },
      cpuSchedulerCount := 1, ticks := 0 }, by decide⟩,
   ⟨{ tasks := fun _ => SchedTask.idleTask 0,
      rqs := fun _ => { EevdfRq.boot 0 with
        avgVruntime := 5120, avgLoad := 1024, minVruntime := 18446744073709551615 },
      cpuSchedulerCount := 1, ticks := 0 }, by decide⟩⟩

end Uinxed.Sched
