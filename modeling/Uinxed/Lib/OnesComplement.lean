/-
  Lib/OnesComplement.lean --- w-bit ones' complement sums with end-around
  carries.

  A sum of w-bit words is kept in a wider accumulator and brought back to w
  bits by adding the bits above w at the bottom (carry).  Since 2^w is 1
  modulo 2^w - 1, a carry keeps the residue modulo 2^w - 1, and it keeps a
  non-zero value non-zero.  Rep x T says that an accumulator x stands for the
  exact sum T in that sense; it is kept by adding the same word on both sides
  and by carries, and once x has w bits it is the ones' complement value of T
  (eq_value_of_rep), whatever the order of additions and carries was.
-/
import Mathlib.Data.Nat.ModEq

set_option autoImplicit false

namespace OnesComplement

variable (w : Nat)

/-- One end-around carry: the bits above w added back at the bottom. -/
def carry (x : Nat) : Nat := x % 2 ^ w + x / 2 ^ w

/-- The w-bit ones' complement value of an exact sum: 0 for 0, otherwise the
value in 1 .. 2^w - 1 with its residue. -/
def value (T : Nat) : Nat := if T = 0 then 0 else (T - 1) % (2 ^ w - 1) + 1

/-- The accumulator x stands for the exact sum T: the same residue modulo
2^w - 1, and zero exactly when T is. -/
def Rep (x T : Nat) : Prop := x ≡ T [MOD 2 ^ w - 1] ∧ (x = 0 ↔ T = 0)

/-! ## Carries -/

theorem two_pow_modEq_one : 2 ^ w ≡ 1 [MOD 2 ^ w - 1] := by
  have h : 1 ≤ 2 ^ w := Nat.one_le_two_pow
  exact (Nat.modEq_iff_dvd' h).mpr (dvd_refl _) |>.symm

theorem carry_modEq (x : Nat) : carry w x ≡ x [MOD 2 ^ w - 1] := by
  -- x = 2^w * (x / 2^w) + x % 2^w, and 2^w is 1
  conv_rhs => rw [← Nat.mod_add_div x (2 ^ w)]
  unfold carry
  exact Nat.ModEq.add_left _ (by simpa using ((two_pow_modEq_one w).mul_right (x / 2 ^ w)).symm)

theorem carry_eq_zero_iff (x : Nat) : carry w x = 0 ↔ x = 0 := by
  unfold carry
  constructor
  · intro h
    obtain ⟨h1, h2⟩ := Nat.add_eq_zero_iff.mp h
    rw [← Nat.mod_add_div x (2 ^ w), h1, h2, Nat.mul_zero]
  · rintro rfl
    simp

theorem carry_lt_self (hw : 1 ≤ w) {x : Nat} (h : 2 ^ w ≤ x) : carry w x < x := by
  have h2 : 1 < 2 ^ w := Nat.one_lt_two_pow (by omega)
  have hq : 0 < x / 2 ^ w := Nat.div_pos h (Nat.two_pow_pos w)
  -- the bits above w count once instead of 2^w times
  have hlt : x / 2 ^ w < 2 ^ w * (x / 2 ^ w) := by
    calc x / 2 ^ w = 1 * (x / 2 ^ w) := (Nat.one_mul _).symm
      _ < 2 ^ w * (x / 2 ^ w) := Nat.mul_lt_mul_of_pos_right h2 hq
  have hx := Nat.mod_add_div x (2 ^ w)
  unfold carry
  omega

/-! ## Representation -/

variable {w}

theorem Rep.refl (T : Nat) : Rep w T T := ⟨Nat.ModEq.refl T, Iff.rfl⟩

/-- Adding the same word to the accumulator and to the sum. -/
theorem Rep.add {x T y U : Nat} (h : Rep w x T) (h' : Rep w y U) : Rep w (x + y) (T + U) :=
  ⟨h.1.add h'.1, by rw [Nat.add_eq_zero_iff, Nat.add_eq_zero_iff, h.2, h'.2]⟩

theorem Rep.add_right {x T : Nat} (h : Rep w x T) (y : Nat) : Rep w (x + y) (T + y) :=
  h.add (Rep.refl y)

/-- An accumulator that stands for an accumulator stands for what that one
stands for. -/
theorem Rep.trans {x T U : Nat} (h : Rep w x T) (h' : Rep w T U) : Rep w x U :=
  ⟨h.1.trans h'.1, h.2.trans h'.2⟩

/-- A carry keeps what the accumulator stands for. -/
theorem Rep.carry {x T : Nat} (h : Rep w x T) : Rep w (carry w x) T :=
  ⟨(carry_modEq w x).trans h.1, (carry_eq_zero_iff w x).trans h.2⟩

/-- Once the accumulator has w bits, it is the ones' complement value of the
sum. -/
theorem eq_value_of_rep {x T : Nat} (h : Rep w x T) (hx : x < 2 ^ w) : x = value w T := by
  unfold value
  split_ifs with hT
  · exact h.2.mpr hT
  · have hx0 : x ≠ 0 := fun h0 => hT (h.2.mp h0)
    -- x - 1 and (T - 1) % (2^w - 1) are below 2^w - 1 with the same residue
    have hm : x - 1 ≡ T - 1 [MOD 2 ^ w - 1] := by
      have h1 : x - 1 + 1 ≡ T - 1 + 1 [MOD 2 ^ w - 1] := by
        rw [Nat.sub_add_cancel (Nat.one_le_iff_ne_zero.mpr hx0), Nat.sub_add_cancel (Nat.one_le_iff_ne_zero.mpr hT)]
        exact h.1
      exact Nat.ModEq.add_right_cancel' 1 h1
    have hlt : x - 1 < 2 ^ w - 1 := by omega
    have := hm.symm
    unfold Nat.ModEq at this
    rw [Nat.mod_eq_of_lt hlt] at this
    omega

end OnesComplement
