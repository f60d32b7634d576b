/-
  Lib/SignedArith.lean --- the signed arithmetic of C on 64-bit words.

  A uint64_t cast to int64_t reads the word as the integer congruent to it
  modulo 2^64 in [-2^63, 2^63); the difference of two words read that way is
  the integer difference whenever that lies in the range.  C divides signed
  integers by truncation toward zero: lowering a negative numerator by d - 1
  before dividing by a positive d turns the truncated quotient into the floor,
  which is Int's division, as long as the lowered numerator does not wrap.
-/
import Mathlib.Tactic.Linarith

set_option autoImplicit false

namespace SignedArith

theorem toInt_toInt64 (x : UInt64) : x.toInt64.toInt = (x.toNat : Int).bmod (2 ^ 64) := by
  rw [← Int64.toInt_toBitVec, UInt64.toBitVec_toInt64, BitVec.toInt_eq_toNat_bmod]
  rfl

theorem toInt_toInt64_of_lt {x : UInt64} (hx : x.toNat < 2 ^ 63) : x.toInt64.toInt = x.toNat := by
  rw [toInt_toInt64, Int.bmod_eq_of_le (by omega) (by omega)]

theorem ediv_eq_of_bounds {a d q : Int} (hd : 0 < d) (h₁ : q * d ≤ a) (h₂ : a < (q + 1) * d) :
    a / d = q :=
  le_antisymm (Int.lt_add_one_iff.mp ((Int.ediv_lt_iff_lt_mul hd).mpr h₂))
    ((Int.le_ediv_iff_mul_le hd).mpr h₁)

theorem tdiv_biased_eq_ediv {a d : Int} (hd : 0 < d) :
    (if a < 0 then a - (d - 1) else a).tdiv d = a / d := by
  split_ifs with ha
  · -- truncation of a negative numerator is minus the floor of its negation
    have hx : a - (d - 1) < 0 := by omega
    rw [← neg_neg (a - (d - 1)), Int.neg_tdiv, Int.tdiv_eq_ediv_of_nonneg (by omega)]
    have h₁ := Int.ediv_mul_le (-(a - (d - 1))) hd.ne'
    have h₂ := Int.lt_ediv_add_one_mul_self (-(a - (d - 1))) hd
    symm
    apply ediv_eq_of_bounds hd <;> nlinarith
  · exact Int.tdiv_eq_ediv_of_nonneg (by omega)

/-- The left-biased int64 quotient by a positive word below 2^63 is the floor,
when the lowered numerator does not wrap. -/
theorem biased_div_toInt (a : Int64) {d : UInt64} (hd : 0 < d.toNat) (hd' : d.toNat < 2 ^ 63)
    (ha : -2 ^ 63 + (d.toNat - 1) ≤ a.toInt) :
    ((if a < 0 then a - (d - 1).toInt64 else a) / d.toInt64).toInt = a.toInt / d.toNat := by
  have hd₁ : (d - 1).toNat = d.toNat - 1 := by
    rw [UInt64.toNat_sub_of_le _ _ (by simp [UInt64.le_iff_toNat_le]; omega)]
    rfl
  have hdi : d.toInt64.toInt = d.toNat := toInt_toInt64_of_lt hd'
  have hd1i : (d - 1).toInt64.toInt = d.toNat - 1 := by
    rw [toInt_toInt64_of_lt (by omega), hd₁]
    omega
  have hnum : (if a < 0 then a - (d - 1).toInt64 else a).toInt =
      if a.toInt < 0 then a.toInt - (d.toNat - 1) else a.toInt := by
    by_cases hneg : a < 0
    · have hneg' : a.toInt < 0 := Int64.lt_iff_toInt_lt.mp hneg
      rw [if_pos hneg, if_pos hneg', Int64.toInt_sub, hd1i, Int.bmod_eq_of_le (by omega) (by omega)]
    · have hneg' : ¬ a.toInt < 0 := fun h => hneg (Int64.lt_iff_toInt_lt.mpr h)
      rw [if_neg hneg, if_neg hneg']
  rw [Int64.toInt_div_of_ne_right _ _ (fun h => by
    have := congrArg Int64.toInt h
    rw [hdi] at this
    simp at this), hnum, hdi, tdiv_biased_eq_ediv (by omega)]

/-- The difference of two words read as a signed one is the integer difference,
when that lies in [-2^63, 2^63). -/
theorem toInt_toInt64_sub {v m : UInt64} {q : Int} (hq₁ : -2 ^ 63 ≤ q) (hq₂ : q < 2 ^ 63)
    (hv : (v.toNat : Int) = m.toNat + q) : (v - m).toInt64.toInt = q := by
  have hvl := UInt64.toNat_lt v
  have hml := UInt64.toNat_lt m
  rw [toInt_toInt64, UInt64.toNat_sub, Int.bmod_def]
  omega

end SignedArith
