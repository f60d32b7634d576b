/-
  Lib/BlockMove.lean --- moving a block of memory, at once and piece by piece.

  moved m d s n is memory after the n cells at s are copied to d, every cell
  read before any is written: what a memmove promises.  A loop that moves a
  few cells at a time and steps its two pointers up computes it exactly when
  no read falls on a cell the loop has already written, which holds when the
  destination does not start inside the source; a loop that copies one cell
  at a time from the top down computes it when the destination does not lie
  below the source.  filled is the same for a store of one value, and words
  of bytes are read and written little-endian by loadLe and storeLe: storing
  a loaded word moves its bytes.
-/
import Mathlib.Algebra.GroupWithZero.Nat
import Mathlib.Logic.Function.Basic
import Mathlib.Tactic.SplitIfs

set_option autoImplicit false

namespace BlockMove

variable {α : Type}

/-- Memory after the n cells at s are copied to d, each read from m. -/
def moved (m : Nat → α) (d s n : Nat) : Nat → α := fun a =>
  if d ≤ a ∧ a < d + n then m (s + (a - d)) else m a

/-- Memory after the n cells at d are set to b. -/
def filled (m : Nat → α) (d n : Nat) (b : α) : Nat → α := fun a =>
  if d ≤ a ∧ a < d + n then b else m a

/-- k rounds of an instruction that acts at p and q and then steps both
pointers up by w. -/
def repUp (op : (Nat → α) → Nat → Nat → Nat → α) (w : Nat) (m : Nat → α) (p q : Nat) :
    Nat → Nat → α
  | 0 => m
  | k + 1 => repUp op w (op m p q) (p + w) (q + w) k

/-- k rounds of an instruction that acts at p and q and then steps both
pointers down by one. -/
def repDown (op : (Nat → α) → Nat → Nat → Nat → α) (m : Nat → α) (p q : Nat) : Nat → Nat → α
  | 0 => m
  | k + 1 => repDown op (op m p q) (p - 1) (q - 1) k

@[simp] theorem moved_zero (m : Nat → α) (d s : Nat) : moved m d s 0 = m := by
  funext a
  simp only [moved]
  rw [if_neg (by omega)]

/-- Moving one cell is updating it. -/
theorem moved_one (m : Nat → α) (d s : Nat) : moved m d s 1 = Function.update m d (m s) := by
  funext a
  simp only [moved, Function.update_apply]
  by_cases h : a = d
  · rw [if_pos (by omega), if_pos h, h, Nat.sub_self, Nat.add_zero]
  · rw [if_neg (by omega), if_neg h]

/-- Copying a block onto itself changes nothing. -/
theorem moved_self (m : Nat → α) (d n : Nat) : moved m d d n = m := by
  funext a
  simp only [moved]
  split_ifs with h
  · congr 1
    omega
  · rfl

@[simp] theorem filled_zero (m : Nat → α) (d : Nat) (b : α) : filled m d 0 b = m := by
  funext a
  simp only [filled]
  rw [if_neg (by omega)]

/-- Storing one cell is updating it. -/
theorem filled_one (m : Nat → α) (d : Nat) (b : α) : filled m d 1 b = Function.update m d b := by
  funext a
  simp only [filled, Function.update_apply]
  by_cases h : a = d
  · rw [if_pos (by omega), if_pos h]
  · rw [if_neg (by omega), if_neg h]

/-- Two moves in a row, the second w cells further up, are one move, when
the second reads nothing the first wrote: the destination is not above the
source, or lies past all of it. -/
theorem moved_moved_up (m : Nat → α) {d s w v : Nat} (h : d ≤ s ∨ s + w + v ≤ d) :
    moved (moved m d s w) (d + w) (s + w) v = moved m d s (w + v) := by
  funext a
  simp only [moved]
  by_cases hhi : d + w ≤ a ∧ a < d + w + v
  · -- the read at s + (a - d) falls outside what the first move wrote
    have hread : ¬ (d ≤ s + w + (a - (d + w)) ∧ s + w + (a - (d + w)) < d + w) := by omega
    rw [if_pos hhi, if_neg hread, if_pos (by omega)]
    congr 1
    omega
  · rw [if_neg hhi]
    by_cases hlo : d ≤ a ∧ a < d + w
    · rw [if_pos hlo, if_pos (by omega)]
    · rw [if_neg hlo, if_neg (by omega)]

/-- A one-cell move at the top of a block, then the move of the cells below
it, is the move of the whole block, when the source does not lie above the
destination. -/
theorem moved_moved_down (m : Nat → α) {d s k : Nat} (h : s ≤ d) :
    moved (moved m (d + k) (s + k) 1) d s k = moved m d s (k + 1) := by
  funext a
  simp only [moved]
  by_cases hlo : d ≤ a ∧ a < d + k
  · -- the read at s + (a - d) lies below the top cell d + k
    have hread : ¬ (d + k ≤ s + (a - d) ∧ s + (a - d) < d + k + 1) := by omega
    rw [if_pos hlo, if_neg hread, if_pos (by omega)]
  · rw [if_neg hlo]
    by_cases htop : d + k ≤ a ∧ a < d + k + 1
    · rw [if_pos htop, if_pos (by omega)]
      congr 1
      omega
    · rw [if_neg htop, if_neg (by omega)]

theorem filled_filled (m : Nat → α) (d w v : Nat) (b : α) :
    filled (filled m d w b) (d + w) v b = filled m d (w + v) b := by
  funext a
  simp only [filled]
  by_cases hhi : d + w ≤ a ∧ a < d + w + v
  · rw [if_pos hhi, if_pos (by omega)]
  · rw [if_neg hhi]
    by_cases hlo : d ≤ a ∧ a < d + w
    · rw [if_pos hlo, if_pos (by omega)]
    · rw [if_neg hlo, if_neg (by omega)]

section Rep

variable {op : (Nat → α) → Nat → Nat → Nat → α} {w : Nat}

/-- An upward loop of w-cell moves is one move of its whole range, when the
destination does not start inside the source. -/
theorem repUp_eq_moved (hop : ∀ m p q, op m p q = moved m p q w) :
    ∀ (k : Nat) (m : Nat → α) (p q : Nat), p ≤ q ∨ q + w * k ≤ p →
      repUp op w m p q k = moved m p q (w * k)
  | 0, m, p, q, _ => by simp [repUp]
  | k + 1, m, p, q, h => by
    have hrest : p + w ≤ q + w ∨ q + w + w * k ≤ p + w := by
      rw [Nat.mul_succ] at h
      omega
    have hfirst : p ≤ q ∨ q + w + w * k ≤ p := by
      rw [Nat.mul_succ] at h
      omega
    rw [repUp, repUp_eq_moved hop k _ _ _ hrest, hop, moved_moved_up m hfirst, Nat.mul_succ,
      Nat.add_comm w]

/-- An upward loop of w-cell stores of b fills its whole range. -/
theorem repUp_eq_filled {b : α} (hop : ∀ m p q, op m p q = filled m p w b) :
    ∀ (k : Nat) (m : Nat → α) (p q : Nat), repUp op w m p q k = filled m p (w * k) b
  | 0, m, p, q => by simp [repUp]
  | k + 1, m, p, q => by
    rw [repUp, repUp_eq_filled hop k, hop, filled_filled, Nat.mul_succ, Nat.add_comm w]

/-- A downward loop of one-cell moves from the top cells d + k and s + k is
the move of the k + 1 cells at s to d, when the source does not lie above
the destination. -/
theorem repDown_eq_moved (hop : ∀ m p q, op m p q = moved m p q 1) {d s : Nat} (h : s ≤ d) :
    ∀ (k : Nat) (m : Nat → α), repDown op m (d + k) (s + k) (k + 1) = moved m d s (k + 1)
  | 0, m => by simp [repDown, hop]
  | k + 1, m => by
    have hp : d + (k + 1) - 1 = d + k := by omega
    have hq : s + (k + 1) - 1 = s + k := by omega
    rw [repDown, hp, hq, repDown_eq_moved hop h k, hop, moved_moved_down m h]

end Rep

/-! ## Little-endian words of bytes -/

/-- The w bytes at s read as a little-endian number. -/
def loadLe (m : Nat → UInt8) (s : Nat) : Nat → Nat
  | 0 => 0
  | w + 1 => (m s).toNat + 256 * loadLe m (s + 1) w

/-- Memory after v is written as w little-endian bytes at d. -/
def storeLe (m : Nat → UInt8) (d w v : Nat) : Nat → UInt8 := fun a =>
  if d ≤ a ∧ a < d + w then UInt8.ofNat (v / 256 ^ (a - d)) else m a

/-- Byte j of a loaded word is the byte j cells on from where it was read. -/
theorem ofNat_loadLe_div (m : Nat → UInt8) :
    ∀ (w s j : Nat), j < w → UInt8.ofNat (loadLe m s w / 256 ^ j) = m (s + j)
  | 0, _, _, h => absurd h (Nat.not_lt_zero _)
  | w + 1, s, 0, _ => by
    have hb := (m s).toNat_lt
    apply UInt8.toNat_inj.mp
    simp only [loadLe, pow_zero, Nat.div_one, UInt8.toNat_ofNat', Nat.reducePow, Nat.add_zero]
    omega
  | w + 1, s, j + 1, h => by
    have hb := (m s).toNat_lt
    -- the low byte drops out of the division by 256
    have hshift : ((m s).toNat + 256 * loadLe m (s + 1) w) / 256 ^ (j + 1) =
        loadLe m (s + 1) w / 256 ^ j := by
      rw [pow_succ, Nat.mul_comm _ 256, ← Nat.div_div_eq_div_mul]
      congr 1
      omega
    rw [loadLe, hshift, ofNat_loadLe_div m w (s + 1) j (by omega), Nat.add_assoc, Nat.add_comm 1 j]

/-- Storing the word loaded at s writes the bytes at s. -/
theorem storeLe_loadLe (m m' : Nat → UInt8) (d s w : Nat) :
    storeLe m d w (loadLe m' s w) = fun a => if d ≤ a ∧ a < d + w then m' (s + (a - d)) else m a := by
  funext a
  simp only [storeLe]
  split_ifs with h
  · exact ofNat_loadLe_div m' w s (a - d) (by omega)
  · rfl

/-- A word loaded and stored back w cells on is a move. -/
theorem storeLe_loadLe_self (m : Nat → UInt8) (d s w : Nat) :
    storeLe m d w (loadLe m s w) = moved m d s w :=
  storeLe_loadLe m m d s w

/-- A word loaded from cells that all hold b, stored, fills with b. -/
theorem storeLe_loadLe_const (m : Nat → UInt8) (d s w : Nat) (b : UInt8) :
    storeLe m d w (loadLe (fun _ => b) s w) = filled m d w b :=
  storeLe_loadLe m _ d s w

end BlockMove
