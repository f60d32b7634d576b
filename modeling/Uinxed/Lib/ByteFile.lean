/-
  Lib/ByteFile.lean --- a file of bytes: a size, and the byte at every offset,
  zero from the size on.

  This is the byte-array semantics a file is read against: bytes never written
  read as zero, a write past the end grows the file and leaves a gap of zeros,
  resizing discards what lies past the new size or extends with zeros, and a
  read returns the bytes of a range clipped to the size.  The invariant that
  nothing past the size is non-zero is a field, so every operation states why
  it keeps it.
-/
import Mathlib.Data.List.GetD
import Mathlib.Tactic.SplitIfs

set_option autoImplicit false

/-- A file of bytes of type α: its size, and its byte at every offset, zero
from the size on. -/
structure ByteFile (α : Type) [Zero α] where
  size : Nat
  byte : Nat → α
  byte_of_le : ∀ x, size ≤ x → byte x = 0

namespace ByteFile

variable {α : Type} [Zero α]

/-- Two files with the same size and bytes are equal. -/
@[ext] theorem ext {f g : ByteFile α} (hs : f.size = g.size) (hb : ∀ x, f.byte x = g.byte x) : f = g := by
  cases f
  cases g
  cases hs
  have : ∀ x, _ = _ := hb
  simp only [mk.injEq, true_and]
  funext x
  exact this x

/-- The empty file. -/
def empty : ByteFile α where
  size := 0
  byte _ := 0
  byte_of_le _ _ := rfl

/-- The bytes of data stored from offset off on, the file growing to cover
them; an empty run changes nothing. -/
def write (f : ByteFile α) (off : Nat) (data : List α) : ByteFile α where
  size := if data.length = 0 then f.size else max f.size (off + data.length)
  byte x := if off ≤ x ∧ x < off + data.length then data.getD (x - off) 0 else f.byte x
  byte_of_le x hx := by
    by_cases hd : data.length = 0
    · rw [if_pos hd] at hx
      rw [if_neg (by omega)]
      exact f.byte_of_le x hx
    · rw [if_neg hd] at hx
      rw [if_neg (by omega)]
      exact f.byte_of_le x (by omega)

/-- The file resized to n bytes: cut, or extended with zeros. -/
def resize (f : ByteFile α) (n : Nat) : ByteFile α where
  size := n
  byte x := if x < n then f.byte x else 0
  byte_of_le x hx := by
    rw [if_neg (by omega)]

/-- The bytes of [off, off + n) that lie below the size. -/
def read (f : ByteFile α) (off n : Nat) : List α :=
  (List.range (min n (f.size - off))).map fun k => f.byte (off + k)

@[simp] theorem byte_write (f : ByteFile α) (off : Nat) (data : List α) (x : Nat) :
    (f.write off data).byte x = if off ≤ x ∧ x < off + data.length then data.getD (x - off) 0 else f.byte x :=
  rfl

@[simp] theorem size_write (f : ByteFile α) (off : Nat) (data : List α) :
    (f.write off data).size = if data.length = 0 then f.size else max f.size (off + data.length) :=
  rfl

@[simp] theorem byte_resize (f : ByteFile α) (n x : Nat) :
    (f.resize n).byte x = if x < n then f.byte x else 0 :=
  rfl

@[simp] theorem size_resize (f : ByteFile α) (n : Nat) : (f.resize n).size = n :=
  rfl

/-- The k-th of the first n values of f, zero past them. -/
theorem getD_map_range (g : Nat → α) (n k : Nat) :
    ((List.range n).map g).getD k 0 = if k < n then g k else 0 := by
  by_cases hk : k < n
  · rw [List.getD_eq_getElem _ _ (by simpa using hk), if_pos hk]
    simp
  · rw [List.getD_eq_default _ _ (by simpa using hk), if_neg hk]

theorem getD_read (f : ByteFile α) (off n k : Nat) :
    (f.read off n).getD k 0 = if k < n then f.byte (off + k) else 0 := by
  unfold read
  rw [getD_map_range]
  by_cases hk : k < min n (f.size - off)
  · rw [if_pos hk, if_pos (by omega)]
  · rw [if_neg hk]
    split_ifs with hn
    · exact (f.byte_of_le _ (by omega)).symm
    · rfl

@[simp] theorem write_nil (f : ByteFile α) (off : Nat) : f.write off [] = f :=
  ext rfl fun x => by
    rw [byte_write, if_neg (by simp)]

/-- A run written in two parts is the run written at once. -/
theorem write_append (f : ByteFile α) (off : Nat) (d₁ d₂ : List α) :
    f.write off (d₁ ++ d₂) = (f.write off d₁).write (off + d₁.length) d₂ := by
  ext x
  · simp only [size_write, List.length_append]
    split_ifs <;> omega
  · simp only [byte_write, List.length_append]
    by_cases h₂ : off + d₁.length ≤ x ∧ x < off + d₁.length + d₂.length
    · rw [if_pos (by omega), if_pos h₂, List.getD_append_right _ _ _ _ (by omega)]
      congr 1
      omega
    · rw [if_neg h₂]
      by_cases h₁ : off ≤ x ∧ x < off + d₁.length
      · rw [if_pos (by omega), if_pos h₁, List.getD_append _ _ _ _ (by omega)]
      · rw [if_neg (by omega), if_neg h₁]

/-- Resizing a file to at least its size changes no byte. -/
theorem byte_resize_of_le {f : ByteFile α} {n : Nat} (h : f.size ≤ n) (x : Nat) : (f.resize n).byte x = f.byte x := by
  rw [byte_resize]
  split_ifs with hx
  · rfl
  · exact (f.byte_of_le x (by omega)).symm

theorem resize_size (f : ByteFile α) : f.resize f.size = f :=
  ext rfl (byte_resize_of_le (Nat.le_refl _))

end ByteFile
