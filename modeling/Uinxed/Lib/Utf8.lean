/-
  Lib/Utf8.lean --- UTF-8 bytes as a decoder written with masks sees them.

  The shortest UTF-8 encoding of a character is String.utf8EncodeChar of the
  standard library.  A decoder in C tests a byte with masks (b & 0300 is 0200
  for a continuation byte) and builds a code point with shifts and ors; the
  lemmas here turn each such test into a range of byte values and each shift
  into arithmetic, and give the bytes of the encoding of a character by the
  range its code point lies in.  A proof about a decoder then rewrites with
  them and ends in omega.
-/
import Mathlib.Data.Nat.Bitwise

set_option autoImplicit false

namespace Utf8Bytes

/-! ## Mask tests on one byte -/

set_option maxRecDepth 8000 in
theorem and_0o200_eq_zero_iff : ∀ b, b < 256 → (b &&& 0o200 = 0 ↔ b < 0x80) := by decide

set_option maxRecDepth 8000 in
/-- Bit 6 of a byte with bit 7 set: clear exactly on continuation bytes. -/
theorem and_0o100_eq_zero_iff : ∀ b, b < 256 → 0x80 ≤ b → (b &&& 0o100 = 0 ↔ b < 0xC0) := by decide

set_option maxRecDepth 8000 in
/-- A lead byte of a sequence of two or more bytes: 11xxxxxx. -/
theorem and_0o300_eq_0o300_iff : ∀ b, b < 256 → (b &&& 0o300 = 0o300 ↔ 0xC0 ≤ b) := by decide

set_option maxRecDepth 8000 in
/-- A continuation byte: 10xxxxxx. -/
theorem and_0o300_eq_0o200_iff : ∀ b, b < 256 → (b &&& 0o300 = 0o200 ↔ 0x80 ≤ b ∧ b < 0xC0) := by decide

/-- The payload of a continuation byte. -/
theorem and_0o77 (b : Nat) : b &&& 0o77 = b % 64 :=
  Nat.and_two_pow_sub_one_eq_mod b 6

/-- The payload of a lead byte of an n-byte sequence, below the mask
0377 >> n. -/
theorem and_0o377_shiftRight (b : Nat) {n : Nat} (hn : n ≤ 8) : b &&& (0o377 >>> n) = b % 2 ^ (8 - n) := by
  have hmask : ∀ k, k ≤ 8 → 0o377 >>> k = 2 ^ (8 - k) - 1 := by decide
  rw [hmask n hn, Nat.and_two_pow_sub_one_eq_mod]

/-- Appending six payload bits. -/
theorem shiftLeft_six_or (a b : Nat) : (a <<< 6) ||| (b % 64) = a * 64 + b % 64 := by
  rw [← Nat.shiftLeft_add_eq_or_of_lt (Nat.mod_lt b (by decide)), Nat.shiftLeft_eq]

/-- Or-ing bits below the set bits of a lead or continuation prefix is adding
them. -/
theorem or_eq_add_of_lt {a b k : Nat} (ha : a % 2 ^ k = 0) (hb : b < 2 ^ k) : a ||| b = a + b := by
  have h : a = (a / 2 ^ k) <<< k := by
    rw [Nat.shiftLeft_eq, Nat.div_mul_cancel (Nat.dvd_of_mod_eq_zero ha)]
  rw [h, Nat.shiftLeft_add_eq_or_of_lt hb]

/-! ## The shortest encoding -/

/-- A character's code point is below 0x110000. -/
theorem toNat_lt (c : Char) : c.toNat < 0x110000 := by
  have h := c.valid
  simp only [UInt32.isValidChar, Nat.isValidChar] at h
  have : c.toNat = c.val.toNat := rfl
  omega

/-- Char.ofNat of a scalar value is the character of that code point. -/
theorem toNat_ofNat_of_isValidChar {n : Nat} (h : n.isValidChar) : (Char.ofNat n).toNat = n := by
  rw [Char.ofNat, dif_pos h]
  rfl

/-- The bytes of the shortest encoding, by the range of the code point. -/
theorem map_toNat_utf8EncodeChar (c : Char) :
    (String.utf8EncodeChar c).map UInt8.toNat =
      if c.toNat < 0x80 then [c.toNat]
      else if c.toNat < 0x800 then [0xC0 + c.toNat / 64, 0x80 + c.toNat % 64]
      else if c.toNat < 0x10000 then [0xE0 + c.toNat / 4096, 0x80 + c.toNat / 64 % 64, 0x80 + c.toNat % 64]
      else [0xF0 + c.toNat / 262144, 0x80 + c.toNat / 4096 % 64, 0x80 + c.toNat / 64 % 64, 0x80 + c.toNat % 64] := by
  have hlt : c.val.toNat < 0x110000 := toNat_lt c
  simp only [String.utf8EncodeChar, Char.toNat]
  split_ifs <;> simp only [List.map_cons, List.map_nil, UInt8.toNat_ofNat', List.cons.injEq, and_true] <;> omega

/-- No shortest encoding starts with a byte from 0xF5 on. -/
theorem head_utf8EncodeChar_lt (c : Char) {b : UInt8} (hb : (String.utf8EncodeChar c).head? = some b) :
    b.toNat < 0xF5 := by
  have h := congrArg List.head? (map_toNat_utf8EncodeChar c)
  rw [List.head?_map, hb] at h
  have hlt := toNat_lt c
  split_ifs at h <;> simp only [Option.map_some, List.head?_cons, Option.some.injEq] at h <;> omega

end Utf8Bytes
