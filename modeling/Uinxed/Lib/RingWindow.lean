/-
  Lib/RingWindow.lean --- the contents of a circular buffer.

  A circular buffer of capacity cap keeps n elements in the cells of a memory
  from index start on, wrapping at cap; the window is the list of those n
  cells.  The code of such a buffer moves data with linear copies (memcpy),
  two for a range that wraps: one up to the end of the buffer and one from its
  start.  The lemmas say what the two copies do in terms of windows: copying
  out reads the window, copying a list in makes it the window at the write
  position and leaves every other cell as it was.  Windows split at any
  point, which is how an append at the end and a removal at the front of the
  contents are read.
-/
import Mathlib.Data.List.Basic

set_option autoImplicit false

namespace RingWindow

variable {α : Type*}

/-- The n cells from start on, wrapping at cap. -/
def window (mem : Nat → α) (cap start n : Nat) : List α :=
  (List.range n).map fun k => mem ((start + k) % cap)

/-- The len cells from offset on, as a linear copy reads them. -/
def readLinear (mem : Nat → α) (offset len : Nat) : List α :=
  (List.range len).map fun k => mem (offset + k)

/-- A linear copy of src into the memory at offset. -/
def writeLinear (mem : Nat → α) (offset : Nat) (src : List α) : Nat → α :=
  fun i => if offset ≤ i then (src[i - offset]?).getD (mem i) else mem i

/-- The length of the first of the two copies of n cells at pos: up to the
end of the buffer. -/
def firstChunk (cap pos n : Nat) : Nat := min (cap - pos) n

/-- Copy n cells out from pos: up to the end of the buffer, then the rest
from its start. -/
def copyOut (mem : Nat → α) (cap pos n : Nat) : List α :=
  readLinear mem pos (firstChunk cap pos n) ++
    if n > firstChunk cap pos n then readLinear mem 0 (n - firstChunk cap pos n) else []

/-- Copy src in at pos the same way. -/
def copyIn (mem : Nat → α) (cap pos : Nat) (src : List α) : Nat → α :=
  let first := firstChunk cap pos src.length
  let mem := writeLinear mem pos (src.take first)
  if src.length > first then writeLinear mem 0 (src.drop first) else mem

/-! ## Windows -/

@[simp] theorem window_length (mem : Nat → α) (cap start n : Nat) : (window mem cap start n).length = n := by
  simp [window]

@[simp] theorem window_zero (mem : Nat → α) (cap start : Nat) : window mem cap start 0 = [] := rfl

@[simp] theorem window_getElem (mem : Nat → α) (cap start n k : Nat) (hk : k < (window mem cap start n).length) :
    (window mem cap start n)[k] = mem ((start + k) % cap) := by
  simp [window]

/-- A window split after its first m cells. -/
theorem window_add (mem : Nat → α) (cap start m n : Nat) :
    window mem cap start (m + n) = window mem cap start m ++ window mem cap (start + m) n := by
  simp only [window, List.range_add, List.map_append, List.map_map, Function.comp_def, Nat.add_assoc]

/-- Only the start's residue matters. -/
theorem window_mod (mem : Nat → α) (cap start n : Nat) : window mem cap (start % cap) n = window mem cap start n := by
  simp only [window, Nat.mod_add_mod]

/-- Two memories that agree on a window's cells have the same window. -/
theorem window_congr {mem mem' : Nat → α} {cap start n : Nat}
    (h : ∀ k < n, mem ((start + k) % cap) = mem' ((start + k) % cap)) :
    window mem cap start n = window mem' cap start n := by
  apply List.ext_getElem (by simp)
  intro k hk _
  simp only [window_getElem]
  exact h k (by simpa using hk)

theorem window_take (mem : Nat → α) (cap start : Nat) {m n : Nat} (hm : m ≤ n) :
    (window mem cap start n).take m = window mem cap start m := by
  obtain ⟨d, rfl⟩ := Nat.exists_eq_add_of_le hm
  rw [window_add, List.take_left' (window_length _ _ _ _)]

theorem window_drop (mem : Nat → α) (cap start : Nat) {m n : Nat} (hm : m ≤ n) :
    (window mem cap start n).drop m = window mem cap ((start + m) % cap) (n - m) := by
  obtain ⟨d, rfl⟩ := Nat.exists_eq_add_of_le hm
  rw [window_add, List.drop_left' (window_length _ _ _ _), window_mod, Nat.add_sub_cancel_left]

/-- Two cells fewer than cap apart are different cells. -/
theorem mod_add_ne (cap a : Nat) {k m : Nat} (hkm : k < m) (hm : m < k + cap) : (a + k) % cap ≠ (a + m) % cap := by
  intro heq
  have hdvd : cap ∣ (a + m) - (a + k) := Nat.dvd_of_mod_eq_zero (Nat.sub_mod_eq_zero_of_mod_eq heq.symm)
  have hpos : 0 < (a + m) - (a + k) := by omega
  have hle := Nat.le_of_dvd hpos hdvd
  omega

/-! ## Linear copies -/

theorem writeLinear_of_lt (mem : Nat → α) {offset i : Nat} (src : List α) (h : i < offset) :
    writeLinear mem offset src i = mem i := by
  simp [writeLinear, Nat.not_le.mpr h]

theorem writeLinear_of_ge (mem : Nat → α) {offset i : Nat} {src : List α} (h : offset + src.length ≤ i) :
    writeLinear mem offset src i = mem i := by
  have hnone : src[i - offset]? = none := List.getElem?_eq_none (by omega)
  simp [writeLinear, hnone]

theorem writeLinear_at (mem : Nat → α) (offset : Nat) (src : List α) {k : Nat} (hk : k < src.length) :
    writeLinear mem offset src (offset + k) = src[k] := by
  simp [writeLinear, List.getElem?_eq_getElem hk]

/-- Reading a window that does not wrap is a linear read. -/
theorem window_eq_readLinear (mem : Nat → α) {cap start n : Nat} (h : start + n ≤ cap) :
    window mem cap start n = readLinear mem start n := by
  apply List.map_congr_left
  intro k hk
  rw [Nat.mod_eq_of_lt (by simp at hk; omega)]

/-! ## The two-copy moves -/

section TwoCopies

variable {cap pos : Nat} (hpos : pos < cap)
include hpos

/-- Copying n cells out from pos reads the window there. -/
theorem copyOut_eq_window (mem : Nat → α) {n : Nat} (hn : n ≤ cap) : copyOut mem cap pos n = window mem cap pos n := by
  unfold copyOut firstChunk
  by_cases hfit : pos + n ≤ cap
  · -- one copy: the range does not wrap
    have hmin : min (cap - pos) n = n := by omega
    rw [hmin, if_neg (Nat.lt_irrefl n), List.append_nil]
    exact (window_eq_readLinear mem hfit).symm
  · -- two copies: up to the end, then from index 0
    have hmin : min (cap - pos) n = cap - pos := by omega
    have hsplit : n = (cap - pos) + (n - (cap - pos)) := by omega
    have hwrap : window mem cap (pos + (cap - pos)) (n - (cap - pos)) = readLinear mem 0 (n - (cap - pos)) := by
      rw [← window_mod, show (pos + (cap - pos)) % cap = 0 by rw [Nat.add_sub_cancel' (Nat.le_of_lt hpos), Nat.mod_self]]
      exact window_eq_readLinear mem (by omega)
    rw [hmin, if_pos (by omega), hsplit, window_add, window_eq_readLinear mem (by omega), hwrap]
    simp only [Nat.add_sub_cancel_left]

/-- Copying src in at pos puts its k-th element in the k-th cell of the
window at pos. -/
theorem copyIn_at (mem : Nat → α) {src : List α} (hlen : src.length ≤ cap) {k : Nat} (hk : k < src.length) :
    copyIn mem cap pos src ((pos + k) % cap) = src[k] := by
  unfold copyIn firstChunk
  by_cases hk' : pos + k < cap
  · -- the cell lies in the first copy, which the second does not reach
    rw [Nat.mod_eq_of_lt hk']
    have hfirst : writeLinear mem pos (src.take (min (cap - pos) src.length)) (pos + k) = src[k] := by
      rw [writeLinear_at mem pos _ (by simp; omega), List.getElem_take]
    split
    · rw [writeLinear_of_ge _ (by simp; omega), hfirst]
    · exact hfirst
  · -- the cell lies in the second copy, at index pos + k - cap
    have hmod : (pos + k) % cap = k - (cap - pos) := by
      rw [Nat.mod_eq_sub_mod (by omega), Nat.mod_eq_of_lt (by omega)]
      omega
    have hmin : min (cap - pos) src.length = cap - pos := by omega
    rw [hmod, hmin, if_pos (by omega)]
    have hat := writeLinear_at (writeLinear mem pos (src.take (cap - pos))) 0 (src.drop (cap - pos))
      (k := k - (cap - pos)) (by simp; omega)
    rw [Nat.zero_add] at hat
    rw [hat, List.getElem_drop]
    congr 1
    omega

/-- Copying src in at pos leaves every cell outside the window it fills. -/
theorem copyIn_of_not_mem (mem : Nat → α) {src : List α} {i : Nat} (hi : i < cap)
    (hout : ∀ j < src.length, (pos + j) % cap ≠ i) : copyIn mem cap pos src i = mem i := by
  unfold copyIn firstChunk
  -- the first copy fills [pos, pos + first), the second [0, length - first)
  have hfirst : writeLinear mem pos (src.take (min (cap - pos) src.length)) i = mem i := by
    by_cases hlo : i < pos
    · exact writeLinear_of_lt mem _ hlo
    · apply writeLinear_of_ge
      by_contra hin
      have hj : i - pos < src.length := by simp at hin; omega
      exact hout (i - pos) hj (by rw [Nat.add_sub_cancel' (by omega), Nat.mod_eq_of_lt hi])
  split
  · rename_i hwrap
    rw [writeLinear_of_ge _ ?_, hfirst]
    by_contra hin
    have hmin : min (cap - pos) src.length = cap - pos := by omega
    simp only [List.length_drop, hmin, Nat.zero_add, Nat.not_le] at hin
    have hj : cap - pos + i < src.length := by omega
    apply hout (cap - pos + i) hj
    rw [← Nat.add_assoc, Nat.add_sub_cancel' (Nat.le_of_lt hpos), Nat.add_mod_left, Nat.mod_eq_of_lt hi]
  · exact hfirst

end TwoCopies

/-! ## Appending at the end of a window -/

section Append

variable {cap : Nat} (hcap : 0 < cap)
include hcap

/-- A copy in at the end of a window, of at most the room left, leaves the
window as it was. -/
theorem window_copyIn_end (mem : Nat → α) (start n : Nat) {src : List α} (hroom : n + src.length ≤ cap) :
    window (copyIn mem cap ((start + n) % cap) src) cap start n = window mem cap start n := by
  apply window_congr
  intro k hk
  apply copyIn_of_not_mem (Nat.mod_lt _ hcap) mem (Nat.mod_lt _ hcap)
  intro j hj
  rw [Nat.mod_add_mod, Nat.add_assoc]
  exact (mod_add_ne cap start (by omega : k < n + j) (by omega)).symm

/-- A copy in at the end of a window appends to it. -/
theorem window_copyIn_append (mem : Nat → α) (start n : Nat) {src : List α} (hroom : n + src.length ≤ cap) :
    window (copyIn mem cap ((start + n) % cap) src) cap start (n + src.length) = window mem cap start n ++ src := by
  rw [window_add, window_copyIn_end hcap mem start n hroom, ← window_mod _ _ (start + n)]
  congr 1
  apply List.ext_getElem (by simp)
  intro k hk _
  simp only [window_getElem]
  exact copyIn_at (Nat.mod_lt _ hcap) mem (by omega) (by simpa using hk)

end Append

end RingWindow
