/-
  Lib/AlignedBlock.lean --- aligned power-of-two blocks of indices.

  A block of order k is the half-open interval [i, i + 2^k) whose first index
  is a multiple of 2^k.  Its buddy is the block of the same order obtained by
  flipping bit k of i, i ^^^ 2^k; a block and its buddy are the two halves of
  one aligned block of order k + 1, headed by the smaller of the two.

  Everything here is arithmetic on Nat; the facts a binary buddy allocator
  needs are that xor with 2^k moves by exactly 2^k, that a block's buddy is
  aligned and distinct from it, that merging two buddies gives the aligned
  block of the next order, and that of two overlapping intervals one contains
  the other's first index.
-/
import Mathlib.Data.Nat.Bitwise

set_option autoImplicit false

namespace AlignedBlock

/-- j lies in the block of 2^k indices starting at i. -/
def InBlock (i k j : Nat) : Prop := i ≤ j ∧ j < i + 2 ^ k

instance (i k j : Nat) : Decidable (InBlock i k j) :=
  inferInstanceAs (Decidable (_ ∧ _))

theorem inBlock_self (i k : Nat) : InBlock i k i :=
  ⟨le_refl i, Nat.lt_add_of_pos_right (Nat.two_pow_pos k)⟩

variable {i k : Nat}

/-! ## Flipping bit k -/

/-- On a multiple of 2^k, xor with 2^k acts on the quotient by 2^k. -/
theorem xor_two_pow_eq (h : i % 2 ^ k = 0) : i ^^^ 2 ^ k = (i / 2 ^ k ^^^ 1) * 2 ^ k := by
  obtain ⟨m, rfl⟩ : ∃ m, i = m * 2 ^ k :=
    ⟨i / 2 ^ k, (Nat.div_mul_cancel (Nat.dvd_of_mod_eq_zero h)).symm⟩
  have hm : m * 2 ^ k / 2 ^ k = m := Nat.mul_div_cancel m (Nat.two_pow_pos k)
  have h1 : (2 : Nat) ^ k = 1 <<< k := by rw [Nat.shiftLeft_eq, Nat.one_mul]
  rw [hm]
  calc m * 2 ^ k ^^^ 2 ^ k = m <<< k ^^^ 1 <<< k := by rw [Nat.shiftLeft_eq, ← h1]
    _ = (m ^^^ 1) <<< k := Nat.shiftLeft_xor_distrib.symm
    _ = (m ^^^ 1) * 2 ^ k := Nat.shiftLeft_eq _ _

/-- Bit k clear: the buddy is the next block up. -/
theorem xor_two_pow_of_even (h : i % 2 ^ k = 0) (he : i / 2 ^ k % 2 = 0) :
    i ^^^ 2 ^ k = i + 2 ^ k := by
  rw [xor_two_pow_eq h, Nat.xor_one_of_even (Nat.even_iff.mpr he), Nat.succ_mul,
    Nat.div_mul_cancel (Nat.dvd_of_mod_eq_zero h)]

/-- Bit k set: the buddy is the next block down. -/
theorem xor_two_pow_of_odd (h : i % 2 ^ k = 0) (ho : i / 2 ^ k % 2 = 1) :
    (i ^^^ 2 ^ k) + 2 ^ k = i := by
  have hpos : 1 ≤ i / 2 ^ k := Nat.pos_of_ne_zero fun h0 => by simp [h0] at ho
  rw [xor_two_pow_eq h, Nat.xor_one_of_odd (Nat.odd_iff.mpr ho), ← Nat.succ_mul,
    Nat.succ_eq_add_one, Nat.sub_add_cancel hpos, Nat.div_mul_cancel (Nat.dvd_of_mod_eq_zero h)]

/-- Alignment to the next order is alignment plus a clear bit k. -/
theorem mod_two_pow_succ_eq_zero_iff :
    i % 2 ^ (k + 1) = 0 ↔ i % 2 ^ k = 0 ∧ i / 2 ^ k % 2 = 0 := by
  rw [Nat.pow_succ, Nat.mod_mul]
  constructor
  · intro h
    have h2 : 2 ^ k * (i / 2 ^ k % 2) = 0 := by omega
    exact ⟨by omega, by simpa [Nat.two_pow_pos k |>.ne'] using h2⟩
  · rintro ⟨h1, h2⟩
    simp [h1, h2]

theorem xor_xor_two_pow (i k : Nat) : i ^^^ 2 ^ k ^^^ 2 ^ k = i := by
  rw [Nat.xor_assoc, Nat.xor_self, Nat.xor_zero]

theorem xor_two_pow_ne (i k : Nat) : i ^^^ 2 ^ k ≠ i := by
  intro h
  -- xor with i on both sides leaves 2^k = 0
  have := congrArg (i ^^^ ·) h
  simp at this

/-! ## Buddies -/

/-- A block's buddy is aligned to the same order. -/
theorem buddy_mod (h : i % 2 ^ k = 0) : (i ^^^ 2 ^ k) % 2 ^ k = 0 := by
  rw [xor_two_pow_eq h]
  exact Nat.mul_mod_left _ _

/-- The head of the merged block is aligned to the next order. -/
theorem min_buddy_mod (h : i % 2 ^ k = 0) : min i (i ^^^ 2 ^ k) % 2 ^ (k + 1) = 0 := by
  rcases Nat.mod_two_eq_zero_or_one (i / 2 ^ k) with he | ho
  · rw [xor_two_pow_of_even h he, Nat.min_eq_left (Nat.le_add_right i _)]
    exact mod_two_pow_succ_eq_zero_iff.mpr ⟨h, he⟩
  · have hb := xor_two_pow_of_odd h ho
    rw [Nat.min_eq_right (by omega)]
    refine mod_two_pow_succ_eq_zero_iff.mpr ⟨buddy_mod h, ?_⟩
    have hq : (i ^^^ 2 ^ k) / 2 ^ k + 1 = i / 2 ^ k := by
      conv_rhs => rw [← hb]
      rw [Nat.add_div_right _ (Nat.two_pow_pos k)]
    omega

/-- A block and its buddy make up the merged block of the next order. -/
theorem inBlock_merge (h : i % 2 ^ k = 0) (j : Nat) :
    InBlock (min i (i ^^^ 2 ^ k)) (k + 1) j ↔ InBlock i k j ∨ InBlock (i ^^^ 2 ^ k) k j := by
  have hp : 2 ^ (k + 1) = 2 ^ k + 2 ^ k := by rw [Nat.pow_succ]; omega
  unfold InBlock
  rcases Nat.mod_two_eq_zero_or_one (i / 2 ^ k) with he | ho
  · rw [xor_two_pow_of_even h he, Nat.min_eq_left (Nat.le_add_right i _), hp]
    omega
  · have hb := xor_two_pow_of_odd h ho
    rw [Nat.min_eq_right (by omega), hp]
    omega

/-- Bit k clear at order k + 1: the upper half's buddy is the lower half. -/
theorem add_two_pow_xor (h : i % 2 ^ (k + 1) = 0) : (i + 2 ^ k) ^^^ 2 ^ k = i := by
  obtain ⟨hk, he⟩ := mod_two_pow_succ_eq_zero_iff.mp h
  rw [← xor_two_pow_of_even hk he, xor_xor_two_pow]

/-! ## Overlapping intervals -/

/-- Of two intervals that share an index, one contains the other's first index. -/
theorem head_mem_of_overlap {i a j b x : Nat} (hi : InBlock i a x) (hj : InBlock j b x) :
    InBlock i a j ∨ InBlock j b i := by
  unfold InBlock at *
  omega

/-! ## Nested aligned blocks -/

/-- Of two multiples of m, one below the other plus m is at most the other. -/
theorem le_of_lt_add_of_dvd {m c i : Nat} (hc : m ∣ c) (hi : m ∣ i) (hlt : c < i + m) : c ≤ i := by
  obtain ⟨p, rfl⟩ := hc
  obtain ⟨q, rfl⟩ := hi
  have hpq : p < q + 1 := Nat.lt_of_mul_lt_mul_left (by rw [Nat.mul_add, Nat.mul_one]; exact hlt)
  exact Nat.mul_le_mul_left m (by omega)

/-- An aligned block of order at least k that shares an index with an aligned
block of order k contains all of it. -/
theorem inBlock_of_overlap {c k' i k j : Nat} (hc : c % 2 ^ k' = 0) (hi : i % 2 ^ k = 0) (hk : k ≤ k')
    (hcj : InBlock c k' j) (hij : InBlock i k j) {x : Nat} (hx : InBlock i k x) : InBlock c k' x := by
  have hdvd : 2 ^ k ∣ 2 ^ k' := Nat.pow_dvd_pow 2 hk
  have hdc : 2 ^ k ∣ c := hdvd.trans (Nat.dvd_of_mod_eq_zero hc)
  have hdi : 2 ^ k ∣ i := Nat.dvd_of_mod_eq_zero hi
  unfold InBlock at *
  -- the larger block starts at or before i and ends at or after i + 2^k
  have hci : c ≤ i := le_of_lt_add_of_dvd hdc hdi (by omega)
  have hend : i + 2 ^ k ≤ c + 2 ^ k' :=
    le_of_lt_add_of_dvd (Nat.dvd_add hdi (dvd_refl _)) (Nat.dvd_add hdc hdvd) (by omega)
  omega

/-- Two aligned blocks of one order, one containing the other's first index, are
the same block. -/
theorem eq_of_inBlock_of_mod {c i k : Nat} (hc : c % 2 ^ k = 0) (hi : i % 2 ^ k = 0) (h : InBlock c k i) :
    c = i := by
  have hdc := Nat.dvd_of_mod_eq_zero hc
  have hdi := Nat.dvd_of_mod_eq_zero hi
  unfold InBlock at h
  have := le_of_lt_add_of_dvd hdi hdc h.2
  omega

end AlignedBlock
