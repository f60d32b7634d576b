/-
  Libs/MemString.lean --- memcpy, memset and memmove (src/libs/std/string.c).

  On x86-64 the three are inline string instructions: n / 8 quadwords by
  rep movsq or rep stosq, then the n % 8 bytes left by rep movsb or rep stosb
  from where the first instruction left rdi and rsi, with the direction flag
  clear.  memmove copies a block whose destination starts inside its source
  by one rep movsb with the flag set.  Memory maps addresses to bytes, an
  address is a Nat (pointers are not taken to wrap at 2^64), and each
  instruction acts as the ISA defines it: movsq loads the little-endian
  quadword at rsi and stores it at rdi, movsb copies one byte, stosq and
  stosb store rax and al.  What the three functions return, their first
  argument, is left out.

  memcpy copies the source block as it was whenever the destination does not
  start inside it, and memset writes the low byte of c, eight times over in
  each quadword.  The portable loops of the #else branch are a memmove for
  every overlap, and the x86 memmove agrees with them except in one case: when
  the destination starts inside the source, it sets dest += n and src += n and
  then runs std; rep movsb, which copies the byte at rsi before it steps down.
  The block lands one byte too high: dest[0] is never written and dest[n],
  past the destination, is.
-/
import Uinxed.Lib.BlockMove

set_option autoImplicit false

namespace Uinxed.MemString

open BlockMove

/-! ## The string instructions -/

/-- movsq: the quadword at rsi, stored at rdi. -/
def movsq (m : Nat → UInt8) (rdi rsi : Nat) : Nat → UInt8 :=
  storeLe m rdi 8 (loadLe m rsi 8)

/-- movsb: the byte at rsi, stored at rdi. -/
def movsb (m : Nat → UInt8) (rdi rsi : Nat) : Nat → UInt8 :=
  Function.update m rdi (m rsi)

/-- stosq: rax stored at rdi; a store reads no rsi. -/
def stosq (rax : Nat) (m : Nat → UInt8) (rdi _rsi : Nat) : Nat → UInt8 :=
  storeLe m rdi 8 rax

/-- stosb: al stored at rdi. -/
def stosb (al : UInt8) (m : Nat → UInt8) (rdi _rsi : Nat) : Nat → UInt8 :=
  Function.update m rdi al

theorem movsq_eq_moved (m : Nat → UInt8) (rdi rsi : Nat) : movsq m rdi rsi = moved m rdi rsi 8 :=
  storeLe_loadLe_self m rdi rsi 8

theorem movsb_eq_moved (m : Nat → UInt8) (rdi rsi : Nat) : movsb m rdi rsi = moved m rdi rsi 1 :=
  (moved_one m rdi rsi).symm

/-- The quadword b * 0x0101010101010101 stores b in each of its eight bytes. -/
theorem stosq_eq_filled (b : UInt8) (m : Nat → UInt8) (rdi rsi : Nat) :
    stosq (b.toNat * 0x0101010101010101) m rdi rsi = filled m rdi 8 b := by
  have hword : b.toNat * 0x0101010101010101 = loadLe (fun _ => b) 0 8 := by
    simp only [loadLe]
    omega
  rw [stosq, hword, storeLe_loadLe_const]

theorem stosb_eq_filled (b : UInt8) (m : Nat → UInt8) (rdi rsi : Nat) :
    stosb b m rdi rsi = filled m rdi 1 b :=
  (filled_one m rdi b).symm

/-- The guard if (count) before a rep instruction changes nothing. -/
theorem ite_ne_zero_repUp (op : (Nat → UInt8) → Nat → Nat → Nat → UInt8) (w : Nat)
    (m : Nat → UInt8) (p q k : Nat) : (if k ≠ 0 then repUp op w m p q k else m) = repUp op w m p q k := by
  by_cases hk : k = 0
  · rw [if_neg (not_not.mpr hk), hk, repUp]
  · rw [if_pos hk]

/-! ## The functions -/

/-- The forward copy of memcpy and memmove: n / 8 quadwords, then the tail
bytes from where rep movsq left rdi and rsi. -/
def copyForward (m : Nat → UInt8) (dest src n : Nat) : Nat → UInt8 :=
  let words := n / 8
  let tail := n % 8
  let m := if words ≠ 0 then repUp movsq 8 m dest src words else m
  if tail ≠ 0 then repUp movsb 1 m (dest + 8 * words) (src + 8 * words) tail else m

/-- memcpy(str1, str2, n) on x86-64. -/
def memcpy (m : Nat → UInt8) (str1 str2 n : Nat) : Nat → UInt8 :=
  if str1 = str2 ∨ n = 0 then m else copyForward m str1 str2 n

/-- (uint8_t)c, which is also al when c is in eax. -/
def lowByte (c : Int) : UInt8 :=
  UInt8.ofNat (c % 256).toNat

/-- memset(str, c, n) on x86-64. -/
def memset (m : Nat → UInt8) (str : Nat) (c : Int) (n : Nat) : Nat → UInt8 :=
  let words := n / 8
  let tail := n % 8
  -- byte * 0x0101010101010101ULL does not wrap: byte is at most 255
  let value := (lowByte c).toNat * 0x0101010101010101
  let m := if words ≠ 0 then repUp (stosq value) 8 m str 0 words else m
  if tail ≠ 0 then repUp (stosb (lowByte c)) 1 m (str + 8 * words) 0 tail else m

/-- memmove(str1, str2, n) on x86-64. -/
def memmove (m : Nat → UInt8) (str1 str2 n : Nat) : Nat → UInt8 :=
  if str1 = str2 ∨ n = 0 then m
  else if str1 < str2 ∨ str2 + n ≤ str1 then copyForward m str1 str2 n
  -- dest += n; src += n; then std; rep movsb; cld
  else repDown movsb m (str1 + n) (str2 + n) n

/-- memmove(str1, str2, n) of the #else branch: byte loops, downward when the
destination starts inside the source, with both pointers decremented before
each copy (*--dest = *--src), so the first byte copied is the last one. -/
def memmovePortable (m : Nat → UInt8) (str1 str2 n : Nat) : Nat → UInt8 :=
  if str1 = str2 ∨ n = 0 then m
  else if str2 < str1 ∧ str1 < str2 + n then repDown movsb m (str1 + n - 1) (str2 + n - 1) n
  else repUp movsb 1 m str1 str2 n

/-! ## What they compute -/

/-- The early return is a move of nothing, or of a block onto itself, so a
function that returns early and moves the block otherwise moves it. -/
theorem ite_skip_eq_moved (m : Nat → UInt8) {str1 str2 n : Nat} {f : Nat → UInt8}
    (hf : ¬ (str1 = str2 ∨ n = 0) → f = moved m str1 str2 n) :
    (if str1 = str2 ∨ n = 0 then m else f) = moved m str1 str2 n := by
  by_cases hskip : str1 = str2 ∨ n = 0
  · rw [if_pos hskip]
    rcases hskip with rfl | rfl
    · rw [moved_self]
    · rw [moved_zero]
  · rw [if_neg hskip, hf hskip]

/-- The quadwords and then the tail bytes move the block as it was, when the
destination does not start inside the source. -/
theorem copyForward_eq_moved (m : Nat → UInt8) {dest src n : Nat} (h : dest ≤ src ∨ src + n ≤ dest) :
    copyForward m dest src n = moved m dest src n := by
  simp only [copyForward, ite_ne_zero_repUp]
  rw [repUp_eq_moved movsq_eq_moved _ _ _ _ (by omega),
    repUp_eq_moved movsb_eq_moved _ _ _ _ (by omega), moved_moved_up m (by omega), Nat.one_mul,
    Nat.div_add_mod]

theorem memcpy_eq_moved (m : Nat → UInt8) {str1 str2 n : Nat} (h : str1 ≤ str2 ∨ str2 + n ≤ str1) :
    memcpy m str1 str2 n = moved m str1 str2 n := by
  unfold memcpy
  exact ite_skip_eq_moved m fun _ => copyForward_eq_moved m h

/-- memcpy copies the source as it was, with the destination below it. -/
theorem memcpy_eq_moved_overlap_below :
    (2 ≤ 5 ∨ 5 + 12 ≤ 2) ∧ memcpy (fun a => UInt8.ofNat a) 2 5 12 = moved (fun a => UInt8.ofNat a) 2 5 12 :=
  ⟨by decide, memcpy_eq_moved _ (by decide)⟩

theorem memset_eq_filled (m : Nat → UInt8) (str : Nat) (c : Int) (n : Nat) :
    memset m str c n = filled m str n (lowByte c) := by
  simp only [memset, ite_ne_zero_repUp]
  rw [repUp_eq_filled (stosq_eq_filled (lowByte c)), repUp_eq_filled (stosb_eq_filled (lowByte c)),
    filled_filled, Nat.one_mul, Nat.div_add_mod]

theorem memmove_eq_moved_of_not_above (m : Nat → UInt8) {str1 str2 n : Nat}
    (h : ¬ (str2 < str1 ∧ str1 < str2 + n)) : memmove m str1 str2 n = moved m str1 str2 n := by
  unfold memmove
  refine ite_skip_eq_moved m fun hskip => ?_
  have hfwd : str1 < str2 ∨ str2 + n ≤ str1 := by omega
  rw [if_pos hfwd, copyForward_eq_moved m (by omega)]

/-- The portable loops move the block as it was, whatever the overlap. -/
theorem memmovePortable_eq_moved (m : Nat → UInt8) (str1 str2 n : Nat) :
    memmovePortable m str1 str2 n = moved m str1 str2 n := by
  unfold memmovePortable
  refine ite_skip_eq_moved m fun _ => ?_
  by_cases hin : str2 < str1 ∧ str1 < str2 + n
  · -- downward from the last byte, str1 + k and str2 + k
    obtain ⟨k, rfl⟩ : ∃ k, n = k + 1 := ⟨n - 1, by omega⟩
    have hp : str1 + (k + 1) - 1 = str1 + k := by omega
    have hq : str2 + (k + 1) - 1 = str2 + k := by omega
    rw [if_pos hin, hp, hq, repDown_eq_moved movsb_eq_moved (by omega)]
  · rw [if_neg hin, repUp_eq_moved movsb_eq_moved _ _ _ _ (by omega), Nat.one_mul]

theorem memmove_eq_memmovePortable (m : Nat → UInt8) {str1 str2 n : Nat}
    (h : ¬ (str2 < str1 ∧ str1 < str2 + n)) : memmove m str1 str2 n = memmovePortable m str1 str2 n := by
  rw [memmove_eq_moved_of_not_above m h, memmovePortable_eq_moved]

/-- memmove and the portable loops agree on a move down by three bytes. -/
theorem memmove_eq_memmovePortable_down_three :
    ¬ (5 < 2 ∧ 2 < 5 + 12) ∧
      memmove (fun a => UInt8.ofNat a) 2 5 12 = memmovePortable (fun a => UInt8.ofNat a) 2 5 12 :=
  ⟨by decide, memmove_eq_memmovePortable _ (by decide)⟩

/-- With the destination inside the source, memmove moves the block to one
byte past the destination. -/
theorem memmove_eq_moved_succ_of_above (m : Nat → UInt8) {str1 str2 n : Nat}
    (h : str2 < str1 ∧ str1 < str2 + n) : memmove m str1 str2 n = moved m (str1 + 1) (str2 + 1) n := by
  obtain ⟨k, rfl⟩ : ∃ k, n = k + 1 := ⟨n - 1, by omega⟩
  have hskip : ¬ (str1 = str2 ∨ k + 1 = 0) := by omega
  have hfwd : ¬ (str1 < str2 ∨ str2 + (k + 1) ≤ str1) := by omega
  -- rep movsb starts at str1 + n, the top byte of the block one higher
  have hp : str1 + (k + 1) = str1 + 1 + k := by omega
  have hq : str2 + (k + 1) = str2 + 1 + k := by omega
  unfold memmove
  rw [if_neg hskip, if_neg hfwd, hp, hq, repDown_eq_moved movsb_eq_moved (by omega)]

/-- memmove(1, 0, 2) leaves byte 1 alone and overwrites byte 3. -/
theorem memmove_eq_moved_succ_of_above_one_two :
    (0 < 1 ∧ 1 < 0 + 2) ∧ memmove (fun a => UInt8.ofNat a) 1 0 2 = moved (fun a => UInt8.ofNat a) 2 1 2 :=
  ⟨by decide, memmove_eq_moved_succ_of_above _ (by decide)⟩

example : memmove (fun a => UInt8.ofNat a) 1 0 2 1 = 1 ∧ memmove (fun a => UInt8.ofNat a) 1 0 2 3 = 2 ∧
    memmovePortable (fun a => UInt8.ofNat a) 1 0 2 1 = 0 := by
  decide

end Uinxed.MemString
