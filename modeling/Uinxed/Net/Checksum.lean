/-
  Net/Checksum.lean --- the RFC 1071 checksum helpers of src/net/core/core.c:
  net_checksum_add_words, net_checksum_add_sse2, net_checksum_add and
  net_checksum_finish.

  A uint32_t accumulator is modelled as its value together with a flag that
  records whether an addition to it has wrapped (Acc32); the values are the
  ones the C code computes, wrapped modulo 2^32.  The scalar loop adds
  big-endian words and folds the carries back whenever the sum passes 16
  bits.  The SSE2 loop loads sixteen bytes as eight little-endian 16-bit
  lanes, byte-swaps them with two lane shifts, reads them back as four 32-bit
  lanes and adds both halves of each to a 32-bit lane sum, folding the lanes
  twice after every 4 KiB; the lanes are added into the sum, which is folded,
  and the scalar loop takes the tail.

  What both paths compute is read through Lib/OnesComplement.lean: as long as
  nothing wraps, every sum and every lane stands for the exact sum of the
  words it has taken (Rep 16), and net_checksum_finish of any value that
  stands for the exact sum T is the complement of the ones' complement value
  of T.  The lanes never wrap, whatever the length; the sums do not wrap for a
  starting sum below 2^31 (checksum_paths_agree).  A long enough chain of
  one-byte calls to net_checksum_add reaches the starting sum 0xFFFFFFFF,
  where the vector path wraps and its checksum differs from the scalar one
  (checksum_paths_differ_at_produced_sum).

  kernel_fpu_begin and kernel_fpu_end are not modelled; whether SSE2 may be
  used is the argument sseOk of net_checksum_add.
-/
import Uinxed.Lib.OnesComplement
import Mathlib.Data.Nat.Bitwise
import Mathlib.Algebra.BigOperators.Fin

set_option autoImplicit false

namespace Uinxed.Net

open OnesComplement

/-! ## The model -/

/-- A uint32_t accumulator as the C code computes it, and whether an
addition to it has wrapped. -/
structure Acc32 where
  val : Nat
  wrapped : Bool
  deriving DecidableEq, Repr

/-- acc += x on a uint32_t. -/
def Acc32.add (a : Acc32) (x : Nat) : Acc32 :=
  ⟨(a.val + x) % 2 ^ 32, a.wrapped || decide (2 ^ 32 ≤ a.val + x)⟩

/-- a + b of two uint32_t accumulators: wrapped if either was or this
addition wraps. -/
def Acc32.addAcc (a b : Acc32) : Acc32 :=
  ⟨(a.val + b.val) % 2 ^ 32, a.wrapped || b.wrapped || decide (2 ^ 32 ≤ a.val + b.val)⟩

/-- x = (x & 0xffff) + (x >> 16) -/
def foldOnce (x : Nat) : Nat := (x &&& 0xffff) + (x >>> 16)

/-- while (x >> 16) x = (x & 0xffff) + (x >> 16), with fuel. -/
def foldLoop : Nat → Nat → Nat
  | 0, x => x
  | fuel + 1, x => if x >>> 16 ≠ 0 then foldLoop fuel (foldOnce x) else x

/-- The while loop of the source: each fold makes the value smaller, so the
value itself is enough fuel. -/
def foldWhile (x : Nat) : Nat := foldLoop x x

/-- One iteration of the scalar loop: add a word, fold once if the sum
passed 16 bits. -/
def addWordFold (sum : Acc32) (word : Nat) : Acc32 :=
  let sum := sum.add word
  if sum.val >>> 16 ≠ 0 then { sum with val := foldOnce sum.val } else sum

/-- net_checksum_add_words(sum, bytes, length). -/
def addWords (sum : Acc32) : List UInt8 → Acc32
  | b0 :: b1 :: rest => addWords (addWordFold sum ((b0.toNat <<< 8) ||| b1.toNat)) rest
  | [b0] => sum.add (b0.toNat <<< 8)
  | [] => sum

/-- Lane j of a 16-byte vector loaded by memcpy into eight unsigned shorts:
little-endian. -/
def loadLane16 (v : List UInt8) (j : Nat) : Nat := (v.getD (2 * j) 0).toNat + (v.getD (2 * j + 1) 0).toNat * 2 ^ 8

/-- (word << 8) | (word >> 8) on an unsigned short lane. -/
def swap16 (word : Nat) : Nat := ((word <<< 8) % 2 ^ 16) ||| (word >>> 8)

/-- Lane k of the swapped vector read back by memcpy as four unsigned ints:
little-endian. -/
def wideLane (v : List UInt8) (k : Nat) : Nat := swap16 (loadLane16 v (2 * k)) + swap16 (loadLane16 v (2 * k + 1)) * 2 ^ 16

/-- acc = acc + lo + hi for one vector. -/
def addVector (acc : Fin 4 → Acc32) (v : List UInt8) : Fin 4 → Acc32 :=
  fun k => ((acc k).add (wideLane v k.val &&& 0xFFFF)).add (wideLane v k.val >>> 16)

/-- acc = (acc & 0xFFFF) + (acc >> 16) on every lane. -/
def foldLanes (acc : Fin 4 → Acc32) : Fin 4 → Acc32 :=
  fun k => { acc k with val := foldOnce (acc k).val }

/-- One iteration of the vector loop, at offset i. -/
def sseStep (bytes : List UInt8) (i : Nat) (acc : Fin 4 → Acc32) : Fin 4 → Acc32 :=
  let acc := addVector acc ((bytes.drop i).take 16)
  if i ≠ 0 ∧ i &&& 0xFFF = 0 then foldLanes (foldLanes acc) else acc

/-- for (; i + 16 <= bulk; i += 16), for n more vectors from offset i. -/
def sseLoop (bytes : List UInt8) : Nat → Nat → (Fin 4 → Acc32) → (Fin 4 → Acc32)
  | 0, _, acc => acc
  | n + 1, i, acc => sseLoop bytes n (i + 16) (sseStep bytes i acc)

/-- net_checksum_add_sse2(sum, bytes, length). -/
def addSse2 (sum : Acc32) (bytes : List UInt8) : Acc32 :=
  -- bulk = length & ~(size_t)15
  let bulk := bytes.length / 16 * 16
  let acc := sseLoop bytes (bulk / 16) 0 (fun _ => ⟨0, false⟩)
  let sum := sum.addAcc ((((acc 0).addAcc (acc 1)).addAcc (acc 2)).addAcc (acc 3))
  addWords { sum with val := foldWhile sum.val } (bytes.drop bulk)

/-- net_checksum_add(sum, data, length), where sseOk is what
kernel_sse_available() and cpu_support_sse2() found. -/
def netChecksumAdd (sseOk : Bool) (sum : Acc32) (bytes : List UInt8) : Acc32 :=
  if sseOk ∧ 128 ≤ bytes.length then addSse2 sum bytes else addWords sum bytes

/-- net_checksum_finish(sum): (uint16_t)~sum after the folds. -/
def netChecksumFinish (sum : Nat) : Nat := (2 ^ 32 - 1 - foldWhile sum) % 2 ^ 16

/-- The sums net_checksum_add returns: from 0, or from a sum it returned
before. -/
inductive Produced : Nat → Prop
  | zero : Produced 0
  | add {s : Nat} (sseOk : Bool) (bytes : List UInt8) : Produced s → Produced (netChecksumAdd sseOk ⟨s, false⟩ bytes).val

/-! ## The exact sum -/

/-- The sum of the big-endian 16-bit words of a buffer, a last odd byte as
the high byte of a word (RFC 1071). -/
def wordSum : List UInt8 → Nat
  | b0 :: b1 :: rest => b0.toNat * 2 ^ 8 + b1.toNat + wordSum rest
  | [b0] => b0.toNat * 2 ^ 8
  | [] => 0

/-- The big-endian word j of a buffer, bytes past its end read as 0. -/
def beWord (v : List UInt8) (j : Nat) : Nat := (v.getD (2 * j) 0).toNat * 2 ^ 8 + (v.getD (2 * j + 1) 0).toNat

theorem wordSum_append {a : List UInt8} (ha : a.length % 2 = 0) (b : List UInt8) :
    wordSum (a ++ b) = wordSum a + wordSum b := by
  induction a using wordSum.induct with
  | case1 b0 b1 rest ih =>
    simp only [List.length_cons] at ha
    simp only [List.cons_append, wordSum, ih (by omega)]
    omega
  | case2 b0 => simp at ha
  | case3 => simp [wordSum]

/-- The first word, and the words after it. -/
theorem wordSum_eq_beWord_add (v : List UInt8) : wordSum v = beWord v 0 + wordSum (v.drop 2) := by
  match v with
  | b0 :: b1 :: rest => simp [wordSum, beWord]
  | [b0] => simp [wordSum, beWord]
  | [] => simp [wordSum, beWord]

theorem beWord_drop_two (v : List UInt8) (j : Nat) : beWord (v.drop 2) j = beWord v (j + 1) := by
  simp only [beWord, List.getD_eq_getElem?_getD, List.getElem?_drop]
  rw [show 2 * (j + 1) + 1 = 2 + (2 * j + 1) by omega, show 2 * (j + 1) = 2 + 2 * j by omega]

/-- The first m words, and the words after them. -/
theorem wordSum_eq_sum_add_drop (m : Nat) (v : List UInt8) :
    wordSum v = ∑ j ∈ Finset.range m, beWord v j + wordSum (v.drop (2 * m)) := by
  induction m generalizing v with
  | zero => simp
  | succ m ih =>
    rw [wordSum_eq_beWord_add, ih (v.drop 2), Finset.sum_range_succ', List.drop_drop]
    simp only [beWord_drop_two]
    rw [show 2 + 2 * m = 2 * (m + 1) by omega]
    omega

/-- A 16-byte vector holds eight words. -/
theorem wordSum_of_length_sixteen {v : List UInt8} (hv : v.length = 16) :
    wordSum v = ∑ j ∈ Finset.range 8, beWord v j := by
  rw [wordSum_eq_sum_add_drop 8 v, List.drop_eq_nil_of_le (by omega), wordSum, Nat.add_zero]

theorem beWord_lt (v : List UInt8) (j : Nat) : beWord v j < 2 ^ 16 := by
  have h0 := UInt8.toNat_lt (v.getD (2 * j) 0)
  have h1 := UInt8.toNat_lt (v.getD (2 * j + 1) 0)
  unfold beWord
  omega

/-- Lane k of a vector takes words 2k and 2k + 1. -/
def laneWords (v : List UInt8) (k : Fin 4) : Nat := beWord v (2 * k.val) + beWord v (2 * k.val + 1)

theorem laneWords_sum {v : List UInt8} (hv : v.length = 16) :
    laneWords v 0 + laneWords v 1 + laneWords v 2 + laneWords v 3 = wordSum v := by
  rw [wordSum_of_length_sixteen hv]
  simp only [laneWords, Finset.sum_range_succ, Finset.sum_range_zero]
  simp
  omega

/-! ## Bit operations as arithmetic -/

theorem and_0xffff (x : Nat) : x &&& 0xffff = x % 2 ^ 16 :=
  Nat.and_two_pow_sub_one_eq_mod x 16

theorem foldOnce_eq_carry (x : Nat) : foldOnce x = carry 16 x := by
  rw [foldOnce, carry, and_0xffff, Nat.shiftRight_eq_div_pow]

/-- Two folds bring a uint32_t below 2^16. -/
theorem foldOnce_foldOnce_lt {x : Nat} (hx : x < 2 ^ 32) : foldOnce (foldOnce x) < 2 ^ 16 := by
  rw [foldOnce_eq_carry, foldOnce_eq_carry, carry, carry]
  omega

/-- The big-endian word the scalar loop builds from two bytes. -/
theorem word_eq (b0 b1 : UInt8) : (b0.toNat <<< 8) ||| b1.toNat = b0.toNat * 2 ^ 8 + b1.toNat := by
  rw [← Nat.shiftLeft_add_eq_or_of_lt (UInt8.toNat_lt b1), Nat.shiftLeft_eq]

/-- Swapping the bytes of a little-endian lane gives the big-endian word. -/
theorem swap16_loadLane16 (v : List UInt8) (j : Nat) : swap16 (loadLane16 v j) = beWord v j := by
  have h0 := UInt8.toNat_lt (v.getD (2 * j) 0)
  have h1 := UInt8.toNat_lt (v.getD (2 * j + 1) 0)
  unfold swap16 loadLane16 beWord
  generalize (v.getD (2 * j) 0).toNat = lo at h0 ⊢
  generalize (v.getD (2 * j + 1) 0).toNat = hi at h1 ⊢
  have hlo : (lo + hi * 2 ^ 8) <<< 8 % 2 ^ 16 = lo <<< 8 := by
    rw [Nat.shiftLeft_eq, Nat.shiftLeft_eq]
    omega
  have hhi : (lo + hi * 2 ^ 8) >>> 8 = hi := by
    rw [Nat.shiftRight_eq_div_pow]
    omega
  rw [hlo, hhi, ← Nat.shiftLeft_add_eq_or_of_lt h1, Nat.shiftLeft_eq]

theorem wideLane_and (v : List UInt8) (k : Nat) : wideLane v k &&& 0xFFFF = beWord v (2 * k) := by
  have h0 := beWord_lt v (2 * k)
  rw [and_0xffff, wideLane, swap16_loadLane16, swap16_loadLane16]
  omega

theorem wideLane_shiftRight (v : List UInt8) (k : Nat) : wideLane v k >>> 16 = beWord v (2 * k + 1) := by
  have h0 := beWord_lt v (2 * k)
  rw [Nat.shiftRight_eq_div_pow, wideLane, swap16_loadLane16, swap16_loadLane16]
  omega

/-! ## Accumulators that do not wrap -/

theorem Acc32.add_of_lt {a : Acc32} {x : Nat} (h : a.val + x < 2 ^ 32) : a.add x = ⟨a.val + x, a.wrapped⟩ := by
  rw [Acc32.add, Nat.mod_eq_of_lt h, decide_eq_false (Nat.not_le.mpr h), Bool.or_false]

theorem Acc32.addAcc_of_lt {a b : Acc32} (h : a.val + b.val < 2 ^ 32) :
    a.addAcc b = ⟨a.val + b.val, a.wrapped || b.wrapped⟩ := by
  rw [Acc32.addAcc, Nat.mod_eq_of_lt h, decide_eq_false (Nat.not_le.mpr h), Bool.or_false]

/-! ## The fold loop -/

theorem foldLoop_rep {x T : Nat} (fuel : Nat) (h : Rep 16 x T) : Rep 16 (foldLoop fuel x) T := by
  induction fuel generalizing x with
  | zero => exact h
  | succ fuel ih =>
    rw [foldLoop]
    split_ifs
    · apply ih
      rw [foldOnce_eq_carry]
      exact h.carry
    · exact h

/-- Each fold of a value of more than 16 bits makes it smaller, so fuel x
more than the 16 bits is enough. -/
theorem foldLoop_lt {x : Nat} (fuel : Nat) (h : x < fuel + 2 ^ 16) : foldLoop fuel x < 2 ^ 16 := by
  induction fuel generalizing x with
  | zero => simpa [foldLoop] using h
  | succ fuel ih =>
    rw [foldLoop]
    split_ifs with hx
    · rw [Nat.shiftRight_eq_div_pow] at hx
      have hle : 2 ^ 16 ≤ x := by omega
      have hlt := carry_lt_self 16 (by decide) hle
      apply ih
      rw [foldOnce_eq_carry]
      omega
    · rw [Nat.shiftRight_eq_div_pow] at hx
      omega

theorem foldWhile_eq_value {x T : Nat} (h : Rep 16 x T) : foldWhile x = value 16 T :=
  eq_value_of_rep (foldLoop_rep x h) (foldLoop_lt x (by omega))

/-- net_checksum_finish of any value that stands for the exact sum T: the
complement of the ones' complement value of T. -/
theorem netChecksumFinish_of_rep {x T : Nat} (h : Rep 16 x T) :
    netChecksumFinish x = (2 ^ 32 - 1 - value 16 T) % 2 ^ 16 := by
  rw [netChecksumFinish, foldWhile_eq_value h]

/-! ## The scalar loop -/

/-- One word added to a sum below M, for 2^17 ≤ M ≤ 2^31: nothing wraps, the
sum stays below M and stands for the sum and the word. -/
theorem addWordFold_spec {M : Nat} (hM : 2 ^ 17 ≤ M) (hM' : M ≤ 2 ^ 31) {sum : Acc32} (hs : sum.val < M)
    {word : Nat} (hw : word < 2 ^ 16) :
    (addWordFold sum word).wrapped = sum.wrapped ∧ Rep 16 (addWordFold sum word).val (sum.val + word) ∧
      (addWordFold sum word).val < M := by
  have hlt : sum.val + word < 2 ^ 32 := by omega
  unfold addWordFold
  rw [Acc32.add_of_lt hlt]
  dsimp only
  split_ifs with hx
  · -- the sum passed 16 bits: one fold brings it back below M
    dsimp only
    refine ⟨rfl, ?_, ?_⟩
    · rw [foldOnce_eq_carry]
      exact (Rep.refl _).carry
    · rw [foldOnce_eq_carry, carry]
      omega
  · rw [Nat.shiftRight_eq_div_pow] at hx
    dsimp only
    exact ⟨rfl, Rep.refl _, by omega⟩

/-- net_checksum_add_words from a sum below M, for 2^17 ≤ M ≤ 2^31: nothing
wraps and the result stands for the sum and the words of the buffer; only a
last odd byte, added without a fold, can take it past M. -/
theorem addWords_spec {M : Nat} (hM : 2 ^ 17 ≤ M) (hM' : M ≤ 2 ^ 31) (sum : Acc32) (bytes : List UInt8)
    (hs : sum.val < M) :
    (addWords sum bytes).wrapped = sum.wrapped ∧ Rep 16 (addWords sum bytes).val (sum.val + wordSum bytes) ∧
      (addWords sum bytes).val < M + 2 ^ 16 := by
  induction sum, bytes using addWords.induct with
  | case1 sum b0 b1 rest ih =>
    have hw : (b0.toNat <<< 8) ||| b1.toNat < 2 ^ 16 := by
      have := UInt8.toNat_lt b0
      have := UInt8.toNat_lt b1
      rw [word_eq]
      omega
    obtain ⟨hwr, hrep, hlt⟩ := addWordFold_spec hM hM' hs hw
    obtain ⟨hwr', hrep', hlt'⟩ := ih hlt
    have hT : sum.val + wordSum (b0 :: b1 :: rest) = sum.val + ((b0.toNat <<< 8) ||| b1.toNat) + wordSum rest := by
      rw [wordSum, word_eq]
      omega
    rw [addWords, hT]
    exact ⟨hwr'.trans hwr, hrep'.trans (hrep.add_right _), hlt'⟩
  | case2 sum b0 =>
    have h0 := UInt8.toNat_lt b0
    have hb : b0.toNat <<< 8 = b0.toNat * 2 ^ 8 := Nat.shiftLeft_eq _ _
    rw [addWords, Acc32.add_of_lt (by omega), wordSum, ← hb]
    dsimp only
    exact ⟨rfl, Rep.refl _, by omega⟩
  | case3 sum =>
    rw [addWords, wordSum, Nat.add_zero]
    exact ⟨rfl, Rep.refl _, by omega⟩


/-! ## The vector loop -/

@[simp] theorem foldLanes_val (acc : Fin 4 → Acc32) (k : Fin 4) : (foldLanes acc k).val = foldOnce (acc k).val := rfl

@[simp] theorem foldLanes_wrapped (acc : Fin 4 → Acc32) (k : Fin 4) : (foldLanes acc k).wrapped = (acc k).wrapped :=
  rfl

/-- A lane that has not wrapped, stands for the exact sum T and is at most
bound. -/
def LaneOk (bound : Nat) (a : Acc32) (T : Nat) : Prop :=
  a.wrapped = false ∧ Rep 16 a.val T ∧ a.val ≤ bound

theorem LaneOk.mono {c c' : Nat} {a : Acc32} {T : Nat} (h : LaneOk c a T) (hc : c ≤ c') : LaneOk c' a T :=
  ⟨h.1, h.2.1, Nat.le_trans h.2.2 hc⟩

/-- How many vectors the lanes have taken since their last fold, before
vector t: the fold after vector t happens for t a non-zero multiple of 256. -/
def since (t : Nat) : Nat := if t = 0 then 0 else (t - 1) % 256 + 1

theorem since_le (t : Nat) : since t ≤ 256 := by
  unfold since
  split_ifs <;> omega

theorem since_succ {t : Nat} (h : ¬(t ≠ 0 ∧ t % 256 = 0)) : since (t + 1) = since t + 1 := by
  unfold since
  split_ifs <;> omega

/-- The lanes before vector t: each has taken at most one vector more than
since t times two words since a fold left it below 2^16. -/
def LaneInv (t : Nat) (acc : Fin 4 → Acc32) (T : Fin 4 → Nat) : Prop :=
  ∀ k, LaneOk (0xFFFF + since t * 0x1FFFE) (acc k) (T k)

/-- acc = acc + lo + hi on a lane with room for two words. -/
theorem addVector_laneOk {c : Nat} (hc : c + 0x1FFFE < 2 ^ 32) {acc : Fin 4 → Acc32} {T : Nat} {k : Fin 4}
    (h : LaneOk c (acc k) T) (v : List UInt8) :
    LaneOk (c + 0x1FFFE) (addVector acc v k) (T + laneWords v k) := by
  obtain ⟨hw, hr, hle⟩ := h
  have h0 := beWord_lt v (2 * k.val)
  have h1 := beWord_lt v (2 * k.val + 1)
  have hlo : (acc k).add (beWord v (2 * k.val)) = ⟨(acc k).val + beWord v (2 * k.val), (acc k).wrapped⟩ :=
    Acc32.add_of_lt (by omega)
  unfold addVector
  rw [wideLane_and, wideLane_shiftRight, hlo, Acc32.add_of_lt (by dsimp only; omega)]
  refine ⟨hw, ?_, by dsimp only; omega⟩
  rw [laneWords, ← Nat.add_assoc]
  exact (hr.add_right _).add_right _

/-- The two folds of the source leave a lane below 2^16. -/
theorem foldLanes_foldLanes_laneOk {c : Nat} (hc : c < 2 ^ 32) {acc : Fin 4 → Acc32} {T : Nat} {k : Fin 4}
    (h : LaneOk c (acc k) T) : LaneOk 0xFFFF (foldLanes (foldLanes acc) k) T := by
  obtain ⟨hw, hr, hle⟩ := h
  have hlt := foldOnce_foldOnce_lt (x := (acc k).val) (by omega)
  refine ⟨hw, ?_, by rw [foldLanes_val, foldLanes_val]; omega⟩
  rw [foldLanes_val, foldLanes_val, foldOnce_eq_carry, foldOnce_eq_carry]
  exact hr.carry.carry

/-- One iteration of the vector loop keeps the lane invariant, each lane
standing for the two words it took. -/
theorem sseStep_laneInv {t : Nat} {acc : Fin 4 → Acc32} {T : Fin 4 → Nat} (h : LaneInv t acc T)
    (bytes : List UInt8) :
    LaneInv (t + 1) (sseStep bytes (16 * t) acc) (fun k => T k + laneWords ((bytes.drop (16 * t)).take 16) k) := by
  intro k
  have hs := since_le t
  have hv := addVector_laneOk (by omega) (h k) ((bytes.drop (16 * t)).take 16)
  unfold sseStep
  dsimp only
  rw [show 16 * t &&& 0xFFF = 16 * t % 2 ^ 12 from Nat.and_two_pow_sub_one_eq_mod _ 12]
  split_ifs with hf
  · -- a fold every 4 KiB: the lanes start again below 2^16
    exact (foldLanes_foldLanes_laneOk (by omega) hv).mono (by omega)
  · -- no fold: the lanes took one more vector since the last one
    have hsucc : since (t + 1) = since t + 1 := since_succ (by omega)
    refine hv.mono ?_
    rw [hsucc, Nat.add_mul]
    omega

theorem laneInv_zero : LaneInv 0 (fun _ => ⟨0, false⟩) (fun _ => 0) :=
  fun _ => ⟨rfl, Rep.refl 0, Nat.zero_le _⟩

/-- The vector loop over n vectors from vector t: the lanes keep the invariant,
and together they stand for the words of those vectors. -/
theorem sseLoop_laneInv (bytes : List UInt8) (n : Nat) :
    ∀ (t : Nat) (acc : Fin 4 → Acc32) (T : Fin 4 → Nat), LaneInv t acc T → 16 * (t + n) ≤ bytes.length →
      ∃ T' : Fin 4 → Nat, LaneInv (t + n) (sseLoop bytes n (16 * t) acc) T' ∧
        T' 0 + T' 1 + T' 2 + T' 3 = T 0 + T 1 + T 2 + T 3 + wordSum ((bytes.drop (16 * t)).take (16 * n)) := by
  induction n with
  | zero =>
    intro t acc T h _
    exact ⟨T, h, by simp [wordSum]⟩
  | succ n ih =>
    intro t acc T h hlen
    obtain ⟨T', h', hT'⟩ := ih (t + 1) _ _ (sseStep_laneInv h bytes) (by omega)
    -- the first vector is sixteen bytes of the buffer
    have hv : ((bytes.drop (16 * t)).take 16).length = 16 := by
      simp only [List.length_take, List.length_drop]
      omega
    have hsplit : (bytes.drop (16 * t)).take (16 * (n + 1)) =
        (bytes.drop (16 * t)).take 16 ++ (bytes.drop (16 * (t + 1))).take (16 * n) := by
      rw [show 16 * (n + 1) = 16 + 16 * n by omega, List.take_add, List.drop_drop,
        show 16 * t + 16 = 16 * (t + 1) by omega]
    refine ⟨T', by rwa [show t + (n + 1) = t + 1 + n by omega], ?_⟩
    rw [hsplit, wordSum_append (by omega), hT', ← laneWords_sum hv]
    omega


/-- acc[0] + acc[1] + acc[2] + acc[3] of lanes that keep the invariant: no
addition wraps, and the total stands for the lanes' exact sums. -/
theorem laneTotal_spec {t : Nat} {acc : Fin 4 → Acc32} {T : Fin 4 → Nat} (h : LaneInv t acc T) :
    ((((acc 0).addAcc (acc 1)).addAcc (acc 2)).addAcc (acc 3)).wrapped = false ∧
      Rep 16 ((((acc 0).addAcc (acc 1)).addAcc (acc 2)).addAcc (acc 3)).val (T 0 + T 1 + T 2 + T 3) ∧
      ((((acc 0).addAcc (acc 1)).addAcc (acc 2)).addAcc (acc 3)).val ≤ 4 * (0xFFFF + 256 * 0x1FFFE) := by
  have hb : since t * 0x1FFFE ≤ 256 * 0x1FFFE := Nat.mul_le_mul_right _ (since_le t)
  obtain ⟨w0, r0, b0⟩ := h 0
  obtain ⟨w1, r1, b1⟩ := h 1
  obtain ⟨w2, r2, b2⟩ := h 2
  obtain ⟨w3, r3, b3⟩ := h 3
  -- each lane is at most 0xFFFF + 256 * 0x1FFFE, so no partial total wraps
  have e1 : (acc 0).addAcc (acc 1) = ⟨(acc 0).val + (acc 1).val, false⟩ := by
    rw [Acc32.addAcc_of_lt (by omega), w0, w1]
    rfl
  have e2 : ((acc 0).addAcc (acc 1)).addAcc (acc 2) = ⟨(acc 0).val + (acc 1).val + (acc 2).val, false⟩ := by
    rw [e1, Acc32.addAcc_of_lt (by dsimp only; omega), w2]
    rfl
  have e3 : (((acc 0).addAcc (acc 1)).addAcc (acc 2)).addAcc (acc 3) =
      ⟨(acc 0).val + (acc 1).val + (acc 2).val + (acc 3).val, false⟩ := by
    rw [e2, Acc32.addAcc_of_lt (by dsimp only; omega), w3]
    rfl
  rw [e3]
  exact ⟨rfl, ((r0.add r1).add r2).add r3, by dsimp only; omega⟩

/-- net_checksum_add_sse2 from a sum below 2^31: no lane and no sum wraps,
and the result stands for the sum and the words of the buffer. -/
theorem addSse2_spec {s : Nat} (hs : s < 2 ^ 31) (bytes : List UInt8) :
    (addSse2 ⟨s, false⟩ bytes).wrapped = false ∧ Rep 16 (addSse2 ⟨s, false⟩ bytes).val (s + wordSum bytes) ∧
      (addSse2 ⟨s, false⟩ bytes).val < 2 ^ 17 + 2 ^ 16 := by
  obtain ⟨T, hinv, hT⟩ := sseLoop_laneInv bytes (bytes.length / 16) 0 _ _ laneInv_zero (by omega)
  rw [Nat.mul_zero] at hinv
  simp only [Nat.mul_zero, List.drop_zero, Nat.add_zero, Nat.zero_add] at hT
  obtain ⟨hw, hr, hle⟩ := laneTotal_spec hinv
  unfold addSse2
  dsimp only
  rw [show bytes.length / 16 * 16 / 16 = bytes.length / 16 by omega]
  generalize sseLoop bytes (bytes.length / 16) 0 (fun _ => ⟨0, false⟩) = acc at hw hr hle
  generalize (((acc 0).addAcc (acc 1)).addAcc (acc 2)).addAcc (acc 3) = total at hw hr hle
  have hsum : (⟨s, false⟩ : Acc32).addAcc total = ⟨s + total.val, false⟩ := by
    rw [Acc32.addAcc_of_lt (by dsimp only; omega), hw]
    rfl
  -- after the folds, the sum stands for the words of the vectors
  have hfold : Rep 16 (foldWhile (s + total.val)) (s + wordSum (bytes.take (bytes.length / 16 * 16))) := by
    rw [Nat.mul_comm, ← hT]
    exact foldLoop_rep _ ((Rep.refl s).add hr)
  have hlt : foldWhile (s + total.val) < 2 ^ 17 := Nat.lt_trans (foldLoop_lt _ (by omega)) (by decide)
  -- the scalar loop takes the tail
  obtain ⟨hw', hr', hlt'⟩ :=
    addWords_spec (M := 2 ^ 17) (by decide) (by decide) ⟨_, false⟩ (bytes.drop (bytes.length / 16 * 16)) hlt
  have hwords : s + wordSum bytes =
      s + wordSum (bytes.take (bytes.length / 16 * 16)) + wordSum (bytes.drop (bytes.length / 16 * 16)) := by
    conv_lhs => rw [← List.take_append_drop (bytes.length / 16 * 16) bytes]
    rw [wordSum_append (by rw [List.length_take]; omega), Nat.add_assoc]
  rw [hsum]
  dsimp only
  rw [hwords]
  exact ⟨hw', hr'.trans (hfold.add_right _), hlt'⟩


/-! ## Both paths -/

/-- A call of net_checksum_add from a sum below 2^31 never wraps its 32-bit
accumulator and returns at most max s 2^17 + 2^16 on either path: the words
are folded as they come, and only a last odd byte is added without a fold. -/
theorem netChecksumAdd_le (sseOk : Bool) {s : Nat} (hs : s < 2 ^ 31) (bytes : List UInt8) :
    (netChecksumAdd sseOk ⟨s, false⟩ bytes).wrapped = false ∧
      (netChecksumAdd sseOk ⟨s, false⟩ bytes).val ≤ max s (2 ^ 17) + 2 ^ 16 := by
  unfold netChecksumAdd
  split_ifs
  · obtain ⟨hw, -, hle⟩ := addSse2_spec hs bytes
    exact ⟨hw, by omega⟩
  · obtain ⟨hw, -, hle⟩ :=
      addWords_spec (M := max (s + 1) (2 ^ 17)) (by omega) (by omega) ⟨s, false⟩ bytes (by dsimp only; omega)
    exact ⟨hw, by omega⟩

/-- From 0xffff, 130 bytes of 0xff on the SSE2 path neither wrap nor pass
the bound. -/
theorem netChecksumAdd_le_ones :
    0xffff < 2 ^ 31 ∧
      (netChecksumAdd true ⟨0xffff, false⟩ (List.replicate 130 0xff)).wrapped = false ∧
      (netChecksumAdd true ⟨0xffff, false⟩ (List.replicate 130 0xff)).val ≤ max 0xffff (2 ^ 17) + 2 ^ 16 :=
  ⟨by decide, netChecksumAdd_le true (by decide) _⟩

theorem checksum_paths_agree (s : Nat) (hs : s < 2 ^ 31) (bytes : List UInt8) :
    (addSse2 ⟨s, false⟩ bytes).wrapped = false ∧ (addWords ⟨s, false⟩ bytes).wrapped = false ∧
      netChecksumFinish (addSse2 ⟨s, false⟩ bytes).val = netChecksumFinish (addWords ⟨s, false⟩ bytes).val ∧
      ∀ sseOk : Bool, netChecksumFinish (netChecksumAdd sseOk ⟨s, false⟩ bytes).val =
        (2 ^ 32 - 1 - value 16 (s + wordSum bytes)) % 2 ^ 16 := by
  obtain ⟨hw, hr, -⟩ := addSse2_spec hs bytes
  obtain ⟨hw', hr', -⟩ := addWords_spec (M := 2 ^ 31) (by decide) le_rfl ⟨s, false⟩ bytes hs
  refine ⟨hw, hw', by rw [netChecksumFinish_of_rep hr, netChecksumFinish_of_rep hr'], fun sseOk => ?_⟩
  unfold netChecksumAdd
  split_ifs
  · exact netChecksumFinish_of_rep hr
  · exact netChecksumFinish_of_rep hr'

theorem checksum_paths_agree_on_ones :
    netChecksumFinish (addSse2 ⟨0, false⟩ (List.replicate 128 0xFF)).val =
      netChecksumFinish (addWords ⟨0, false⟩ (List.replicate 128 0xFF)).val :=
  (checksum_paths_agree 0 (by decide) (List.replicate 128 0xFF)).2.2.1

/-- From 0, a call on the bytes 0x00 0xFF and then k calls on the one byte
0xFF reach 0xFF + k * 0xFF00, since a last odd byte is added without a fold. -/
theorem produced_chain (k : Nat) (hk : k ≤ 0x10101) : Produced (0xFF + k * 0xFF00) := by
  induction k with
  | zero => exact Produced.add false [0x00, 0xFF] Produced.zero
  | succ k ih =>
    have hb : (0xFF : UInt8).toNat <<< 8 = 0xFF00 := by decide
    have hv : (netChecksumAdd false ⟨0xFF + k * 0xFF00, false⟩ [0xFF]).val = 0xFF + (k + 1) * 0xFF00 := by
      rw [netChecksumAdd, if_neg (by decide), addWords, Acc32.add_of_lt (by rw [hb]; dsimp only; omega), hb]
      dsimp only
      omega
    rw [← hv]
    exact Produced.add false [0xFF] (ih (by omega))

theorem checksum_paths_differ_at_produced_sum :
    Produced 0xFFFFFFFF ∧ 128 ≤ ([0, 0, 0, 1] ++ List.replicate 124 0 : List UInt8).length ∧
      (addSse2 ⟨0xFFFFFFFF, false⟩ ([0, 0, 0, 1] ++ List.replicate 124 0)).wrapped = true ∧
      netChecksumFinish (addSse2 ⟨0xFFFFFFFF, false⟩ ([0, 0, 0, 1] ++ List.replicate 124 0)).val = 0xFFFF ∧
      netChecksumFinish (addWords ⟨0xFFFFFFFF, false⟩ ([0, 0, 0, 1] ++ List.replicate 124 0)).val = 0xFFFE :=
  ⟨produced_chain 0x10101 le_rfl, by simp, by decide +kernel, by decide +kernel, by decide +kernel⟩

end Uinxed.Net
