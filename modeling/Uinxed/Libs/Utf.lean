/-
  Libs/Utf.lean --- the UTF-8 decoder of src/libs/util/utflib.c.

  charntorune decodes one sequence of at most len bytes, and utfnlen counts
  the sequences of a string without decoding them.  Both read the lead byte
  through utftab, which gives the length of a sequence by the low six bits of
  a byte 11xxxxxx and 0 for 0xC0, 0xC1, 0xFE and 0xFF; both test the first
  two bytes for an overlong form with the bound 0377 >> n, and then look at
  the rest of the sequence up to min(len, n) bytes.

  A string is a list of bytes; the bytes past its end read as NUL, the
  terminator of a C string.  The source reads the bytes after the lead byte
  through a (signed) char, which only enters & 0300 and & 077, so its value
  modulo 256 is what counts.  charntorune returns how many bytes it took and
  the rune it stored to *p, none when it returned 0 and stored nothing.  The
  rune charntorune builds is at most 31 bits wide, so Rune (int32_t)
  arithmetic on it is exact and it is kept as a natural number until it is
  stored.

  charntorune_utf8EncodeChar and charntorune_sound relate the decoder to the
  shortest encoding of String.utf8EncodeChar, and charntorune_eq_zero_iff
  says when it asks for more bytes.  utfnlen_eq_runeSteps shows that utfnlen
  counts the calls of charntorune that take bytes, the string walked call by
  call.
-/
import Mathlib.Data.List.Basic
import Uinxed.Lib.Utf8

set_option autoImplicit false

namespace Uinxed.Utf

open Utf8Bytes

/-! ## The source -/

/-- UTFmax. -/
def utfMax : Nat := 6

/-- Runeerror, (Rune)-1. -/
def runeError : Int := -1

/-- utftab: the length of a sequence by the low six bits of its lead byte
11xxxxxx, 0 where no sequence starts. -/
def utftab : List Nat :=
  [0, 0, 2, 2, 2, 2, 2, 2, 2, 2, 2, 2, 2, 2, 2, 2,
    2, 2, 2, 2, 2, 2, 2, 2, 2, 2, 2, 2, 2, 2, 2, 2,
    3, 3, 3, 3, 3, 3, 3, 3, 3, 3, 3, 3, 3, 3, 3, 3,
    4, 4, 4, 4, 4, 4, 4, 4, 5, 5, 5, 5, 6, 6, 0, 0]

/-- isvalidrune. -/
def isvalidrune (r : Int) : Bool :=
  if r < 0 then false
  else if 0xd800 ≤ r ∧ r ≤ 0xdfff then false
  else if 0xfdd0 ≤ r ∧ r ≤ 0xfdef then false
  else if r.toNat &&& 0xfffe = 0xfffe then false
  else if r > 0x10ffff then false
  else true

/-- The byte at offset i of a string, NUL past its end. -/
def byteAt (s : List UInt8) (i : Nat) : Nat := (s.getD i 0).toNat

/-- The loop of charntorune over k more bytes from offset i, with the rune
built so far: it stops at the first byte that is not a continuation byte,
with no rune, or after the k bytes with the rune. -/
def charntoruneLoop (s : List UInt8) : Nat → Nat → Nat → Nat × Option Nat
  | 0, i, r => (i, some r)
  | k + 1, i, r =>
    if byteAt s i &&& 0o300 ≠ 0o200 then (i, none)
    else charntoruneLoop s k (i + 1) ((r <<< 6) ||| (byteAt s i &&& 0o77))

/-- charntorune: the number of bytes taken, and the rune stored to *p. -/
def charntorune (s : List UInt8) (len : Nat) : Nat × Option Int :=
  if len = 0 then (0, none)
  else
    let c := byteAt s 0
    if c &&& 0o200 = 0 then (1, some c)
    else if c &&& 0o100 = 0 then (1, some runeError)
    else
      let n := utftab.getD (c &&& 0o77) 0
      if n = 0 then (1, some runeError)
      else if len = 1 then (0, none)
      else if byteAt s 1 &&& 0o300 ≠ 0o200 then (1, some runeError)
      else
        let x := 0o377 >>> n
        let r := ((c &&& x) <<< 6) ||| (byteAt s 1 &&& 0o77)
        if r ≤ x then (2, some runeError)
        else
          -- the loop runs from i = 2 while i < m
          match charntoruneLoop s (min len n - 2) 2 r with
          | (i, none) => (i, some runeError)
          | (i, some r) =>
            if i < n then (0, none)
            else if isvalidrune r then (i, some r) else (i, some runeError)

/-- chartorune. -/
def chartorune (s : List UInt8) : Nat × Option Int := charntorune s utfMax

/-- The inner loop of utfnlen over k more bytes from offset i: where it
stops. -/
def utfnlenScan (s : List UInt8) : Nat → Nat → Nat
  | 0, i => i
  | k + 1, i => if byteAt s i &&& 0o300 ≠ 0o200 then i else utfnlenScan s k (i + 1)

/-- One turn of the loop of utfnlen from a byte that is not NUL: how far it
moves s (a continue), or none when it returns. -/
def utfnlenTurn (s : List UInt8) (len : Nat) : Option Nat :=
  if len = 0 then none
  else
    let c := byteAt s 0
    if c &&& 0o300 ≠ 0o300 then some 1
    else
      let n := utftab.getD (c &&& 0o77) 0
      if n = 0 then some 1
      else if len = 1 then none
      else if byteAt s 1 &&& 0o300 ≠ 0o200 then some 1
      else
        let x := 0o377 >>> n
        let r := ((c &&& x) <<< 6) ||| (byteAt s 1 &&& 0o77)
        if r ≤ x then some 2
        else
          let m := min len n
          let i := utfnlenScan s (m - 2) 2
          if i < m then some i
          else if i < n then none
          else some i

/-- The loop of utfnlen with k sequences counted, for at most fuel more
turns. -/
def utfnlenLoop : Nat → List UInt8 → Nat → Nat → Nat
  | 0, _, _, k => k
  | fuel + 1, s, len, k =>
    if byteAt s 0 = 0 then k
    else
      match utfnlenTurn s len with
      | none => k
      | some d => utfnlenLoop fuel (s.drop d) (len - d) (k + 1)

/-- utfnlen: every turn moves s by a byte at least, and the NUL past the end
stops the loop, so s.length + 1 turns are enough. -/
def utfnlen (s : List UInt8) (len : Nat) : Nat := utfnlenLoop (s.length + 1) s len 0

/-- utflen, utfnlen with len (size_t)-1. -/
def utflen (s : List UInt8) : Nat := utfnlen s (2 ^ 64 - 1)

/-! ## What utfnlen is meant to count -/

/-- Call charntorune on what is left of the string, move on by what it
returns, and stop when the next byte is NUL, len is used up, or it returns
0: the number of calls that took bytes, for at most fuel calls. -/
def runeSteps : Nat → List UInt8 → Nat → Nat
  | 0, _, _ => 0
  | fuel + 1, s, len =>
    if byteAt s 0 = 0 ∨ len = 0 then 0
    else
      let n := (charntorune s len).1
      if n = 0 then 0 else runeSteps fuel (s.drop n) (len - n) + 1

/-! ## Bytes -/

theorem byteAt_lt (s : List UInt8) (i : Nat) : byteAt s i < 256 := (s.getD i 0).toNat_lt

theorem byteAt_append_of_lt {l : List UInt8} {i : Nat} (t : List UInt8) (h : i < l.length) :
    byteAt (l ++ t) i = (l.map UInt8.toNat).getD i 0 := by
  simp [byteAt, List.getD_eq_getElem?_getD, List.getElem?_append_left h, h]

/-- A string whose first byte is not NUL is not empty. -/
theorem ne_nil_of_byteAt (s : List UInt8) (h : byteAt s 0 ≠ 0) : s ≠ [] := by
  rintro rfl
  exact h rfl

set_option maxRecDepth 8000 in
/-- utftab by the lead byte. -/
theorem utftab_getD : ∀ c, c < 256 → 0xC0 ≤ c → utftab.getD (c &&& 0o77) 0 =
    if c < 0xC2 then 0 else if c < 0xE0 then 2 else if c < 0xF0 then 3 else if c < 0xF8 then 4
    else if c < 0xFC then 5 else if c < 0xFE then 6 else 0 := by
  decide

/-! ## The loops -/

/-- Bytes i to i + k - 1 are continuation bytes. -/
def ContBytes (s : List UInt8) (i k : Nat) : Prop :=
  ∀ j, j < k → 0x80 ≤ byteAt s (i + j) ∧ byteAt s (i + j) < 0xC0

/-- The rune the loop of charntorune builds from r and the k bytes from
offset i, six bits of each. -/
def contValue (s : List UInt8) : Nat → Nat → Nat → Nat
  | 0, _, r => r
  | k + 1, i, r => contValue s k (i + 1) (r * 64 + byteAt s i % 64)

theorem cont_iff (s : List UInt8) (i : Nat) :
    byteAt s i &&& 0o300 = 0o200 ↔ 0x80 ≤ byteAt s i ∧ byteAt s i < 0xC0 :=
  and_0o300_eq_0o200_iff _ (byteAt_lt s i)

theorem contBytes_succ {s : List UInt8} {i k : Nat} :
    ContBytes s i (k + 1) ↔ (0x80 ≤ byteAt s i ∧ byteAt s i < 0xC0) ∧ ContBytes s (i + 1) k := by
  constructor
  · intro h
    refine ⟨h 0 (Nat.succ_pos k), fun j hj => ?_⟩
    rw [Nat.add_right_comm, Nat.add_assoc]
    exact h (j + 1) (by omega)
  · rintro ⟨h0, h⟩ j hj
    rcases j with _ | j
    · exact h0
    · rw [Nat.add_comm j 1, ← Nat.add_assoc]
      exact h j (by omega)

/-- One turn of charntorune's loop on a continuation byte. -/
theorem charntoruneLoop_succ_of_cont {s : List UInt8} {i : Nat} (hc : 0x80 ≤ byteAt s i ∧ byteAt s i < 0xC0)
    (k r : Nat) : charntoruneLoop s (k + 1) i r = charntoruneLoop s k (i + 1) (r * 64 + byteAt s i % 64) := by
  simp only [charntoruneLoop, (cont_iff s i).mpr hc, ne_eq, not_true_eq_false, if_false, and_0o77,
    shiftLeft_six_or]

/-- Over k continuation bytes the loop builds the rune from their payloads. -/
theorem charntoruneLoop_of_contBytes {s : List UInt8} :
    ∀ {k i : Nat} (r : Nat), ContBytes s i k → charntoruneLoop s k i r = (i + k, some (contValue s k i r))
  | 0, _, _, _ => rfl
  | k + 1, i, r, h => by
    obtain ⟨h0, hrest⟩ := contBytes_succ.mp h
    rw [charntoruneLoop_succ_of_cont h0, charntoruneLoop_of_contBytes _ hrest, Nat.add_right_comm,
      Nat.add_assoc]
    rfl

/-- The loop ends without a rune exactly when one of the k bytes is not a
continuation byte, and then before the last of them. -/
theorem charntoruneLoop_of_not_contBytes {s : List UInt8} :
    ∀ {k i : Nat} (r : Nat), ¬ContBytes s i k →
      (charntoruneLoop s k i r).2 = none ∧ i ≤ (charntoruneLoop s k i r).1 ∧ (charntoruneLoop s k i r).1 < i + k
  | 0, _, _, h => absurd (fun _ hj => absurd hj (Nat.not_lt_zero _)) h
  | k + 1, i, r, h => by
    by_cases hc : 0x80 ≤ byteAt s i ∧ byteAt s i < 0xC0
    · -- the first byte continues the sequence: the rest holds the culprit
      have hrest : ¬ContBytes s (i + 1) k := fun hr => h (contBytes_succ.mpr ⟨hc, hr⟩)
      obtain ⟨hn, hle, hlt⟩ := charntoruneLoop_of_not_contBytes (r * 64 + byteAt s i % 64) hrest
      rw [charntoruneLoop_succ_of_cont hc]
      exact ⟨hn, by omega, by omega⟩
    · have hne : byteAt s i &&& 0o300 ≠ 0o200 := fun h' => hc ((cont_iff s i).mp h')
      have hstop : charntoruneLoop s (k + 1) i r = (i, none) := by
        simp only [charntoruneLoop, hne, ne_eq, not_false_eq_true, if_true]
      rw [hstop]
      exact ⟨rfl, le_refl i, by omega⟩

/-- utfnlen's scan stops where charntorune's loop does. -/
theorem utfnlenScan_eq (s : List UInt8) : ∀ (k i r : Nat), utfnlenScan s k i = (charntoruneLoop s k i r).1
  | 0, _, _ => rfl
  | k + 1, i, r => by
    by_cases hc : byteAt s i &&& 0o300 = 0o200
    · rw [charntoruneLoop_succ_of_cont ((cont_iff s i).mp hc), ← utfnlenScan_eq s k (i + 1)]
      simp only [utfnlenScan, hc, ne_eq, not_true_eq_false, if_false]
    · simp only [utfnlenScan, charntoruneLoop, hc, ne_eq, not_false_eq_true, if_true]

/-- The lengths utftab gives: none is 1 or above 6. -/
theorem utftab_getD_cases {c : Nat} (hc : c < 256) (hlead : 0xC0 ≤ c) :
    utftab.getD (c &&& 0o77) 0 = 0 ∨ 2 ≤ utftab.getD (c &&& 0o77) 0 ∧ utftab.getD (c &&& 0o77) 0 ≤ 6 := by
  rw [utftab_getD c hc hlead]
  split_ifs <;> simp

/-! ## What charntorune decodes -/

/-- The first two bytes of a sequence of n bytes as charntorune reads them:
the payload of the lead byte below 0377 >> n, then six bits of the next
byte. -/
def leadValue (s : List UInt8) (n : Nat) : Nat := byteAt s 0 % 2 ^ (8 - n) * 64 + byteAt s 1 % 64

/-- The rune charntorune builds from a sequence of n bytes. -/
def seqValue (s : List UInt8) (n : Nat) : Nat := contValue s (n - 2) 2 (leadValue s n)

/-- The first k bytes of s start a sequence of n bytes of the shape
charntorune decodes: a lead byte whose utftab length is n, continuation bytes
after it, and, once two bytes are there, a start above the overlong bound
0377 >> n. -/
structure SeqPrefix (s : List UInt8) (n k : Nat) : Prop where
  lead : 0xC0 ≤ byteAt s 0
  length_eq : utftab.getD (byteAt s 0 &&& 0o77) 0 = n
  two_le : 2 ≤ n
  cont : ContBytes s 1 (k - 1)
  not_overlong : 2 ≤ k → 255 / 2 ^ n < leadValue s n

/-- charntorune's reading of the first two bytes, in arithmetic. -/
theorem lead_or_eq (s : List UInt8) {n : Nat} (hn : n ≤ 8) :
    ((byteAt s 0 &&& 0o377 >>> n) <<< 6) ||| (byteAt s 1 &&& 0o77) = leadValue s n := by
  rw [and_0o377_shiftRight _ hn, and_0o77, shiftLeft_six_or, leadValue]

/-- Past a lead byte of length n followed by a continuation byte, with len ≥ 2
and no overlong start, charntorune is its loop over the rest. -/
theorem charntorune_eq_loop {s : List UInt8} {len n : Nat} (hlen : 2 ≤ len) (hlead : 0xC0 ≤ byteAt s 0)
    (hn : utftab.getD (byteAt s 0 &&& 0o77) 0 = n) (hn2 : 2 ≤ n) (hn6 : n ≤ 6)
    (hb : 0x80 ≤ byteAt s 1 ∧ byteAt s 1 < 0xC0) (hover : 255 / 2 ^ n < leadValue s n) :
    charntorune s len =
      match charntoruneLoop s (min len n - 2) 2 (leadValue s n) with
      | (i, none) => (i, some runeError)
      | (i, some r) => if i < n then (0, none) else if isvalidrune r then (i, some r) else (i, some runeError) := by
  have hc := byteAt_lt s 0
  have h7 : ¬byteAt s 0 &&& 0o200 = 0 := by rw [and_0o200_eq_zero_iff _ hc]; omega
  have h6 : ¬byteAt s 0 &&& 0o100 = 0 := by rw [and_0o100_eq_zero_iff _ hc (by omega)]; omega
  have hcont : byteAt s 1 &&& 0o300 = 0o200 := (cont_iff s 1).mpr hb
  have hx : 0o377 >>> n = 255 / 2 ^ n := Nat.shiftRight_eq_div_pow _ _
  simp only [charntorune, show len ≠ 0 by omega, h7, h6, hn, show n ≠ 0 by omega, show len ≠ 1 by omega, hcont,
    lead_or_eq s (show n ≤ 8 by omega), if_false, ne_eq, not_true_eq_false]
  simp only [hx, not_le.mpr hover, if_false]

/-- A sequence of the shape that fits in len: charntorune takes its n bytes
and stores the rune built from them, or Runeerror when isvalidrune rejects
it. -/
theorem charntorune_of_seq {s : List UInt8} {len n : Nat} (h : SeqPrefix s n n) (hlen : n ≤ len) :
    charntorune s len = (n, some (if isvalidrune (seqValue s n) then (seqValue s n : Int) else runeError)) := by
  have hn2 := h.two_le
  have hn6 := ((utftab_getD_cases (byteAt_lt s 0) h.lead).resolve_left (by rw [h.length_eq]; omega)).2
  rw [h.length_eq] at hn6
  obtain ⟨hb, hrest⟩ := contBytes_succ.mp (show ContBytes s 1 (n - 2 + 1) by
    rw [show n - 2 + 1 = n - 1 by omega]; exact h.cont)
  rw [charntorune_eq_loop (by omega) h.lead h.length_eq h.two_le hn6 hb (h.not_overlong h.two_le),
    show min len n = n by omega, charntoruneLoop_of_contBytes _ hrest, show 2 + (n - 2) = n by omega]
  simp only [lt_irrefl, if_false, seqValue, Nat.reduceAdd]
  by_cases hv : isvalidrune (contValue s (n - 2) 2 (leadValue s n) : Int) = true <;> simp [hv]

/-- A proper prefix of a sequence of the shape: charntorune asks for more
bytes, returns 0 and stores nothing. -/
theorem charntorune_of_seqPrefix {s : List UInt8} {len n : Nat} (h : SeqPrefix s n len) (hpos : 0 < len)
    (hlt : len < n) : charntorune s len = (0, none) := by
  have hc := byteAt_lt s 0
  have hn2 := h.two_le
  have hlead := h.lead
  have h7 : ¬byteAt s 0 &&& 0o200 = 0 := by rw [and_0o200_eq_zero_iff _ hc]; omega
  have h6 : ¬byteAt s 0 &&& 0o100 = 0 := by rw [and_0o100_eq_zero_iff _ hc (by omega)]; omega
  by_cases hlen1 : len = 1
  · -- only the lead byte is there
    subst hlen1
    simp only [charntorune, one_ne_zero, h7, h6, h.length_eq, show n ≠ 0 by omega, ↓reduceIte]
  have hn6 := ((utftab_getD_cases hc h.lead).resolve_left (by rw [h.length_eq]; omega)).2
  rw [h.length_eq] at hn6
  obtain ⟨hb, hrest⟩ := contBytes_succ.mp (show ContBytes s 1 (len - 2 + 1) by
    rw [show len - 2 + 1 = len - 1 by omega]; exact h.cont)
  rw [charntorune_eq_loop (by omega) h.lead h.length_eq h.two_le hn6 hb (h.not_overlong (by omega)),
    show min len n = len by omega, charntoruneLoop_of_contBytes _ hrest, show 2 + (len - 2) = len by omega]
  simp only [hlt, if_true]

/-- What charntorune can return: nothing, when len is 0 or the bytes are a
proper prefix of a sequence of the shape; a byte below 0x80; a whole sequence
of the shape, with the rune isvalidrune accepts; or Runeerror after a byte at
least. -/
theorem charntorune_cases (s : List UInt8) (len : Nat) :
    (charntorune s len = (0, none) ∧ (len = 0 ∨ ∃ n, len < n ∧ SeqPrefix s n len)) ∨
      (len ≠ 0 ∧ byteAt s 0 < 0x80 ∧ charntorune s len = (1, some (byteAt s 0 : Int))) ∨
      (∃ n, n ≤ len ∧ SeqPrefix s n n ∧ isvalidrune (seqValue s n) = true ∧
        charntorune s len = (n, some (seqValue s n : Int))) ∨
      (0 < (charntorune s len).1 ∧ (charntorune s len).2 = some runeError) := by
  have herr : ∀ k, 0 < k → charntorune s len = (k, some runeError) →
      0 < (charntorune s len).1 ∧ (charntorune s len).2 = some runeError :=
    fun k hk h => by rw [h]; exact ⟨hk, rfl⟩
  by_cases hlen : len = 0
  · exact .inl ⟨by simp [charntorune, hlen], .inl hlen⟩
  have hc := byteAt_lt s 0
  by_cases h7 : byteAt s 0 < 0x80
  · exact .inr (.inl ⟨hlen, h7, by simp [charntorune, hlen, (and_0o200_eq_zero_iff _ hc).mpr h7]⟩)
  have h7' : ¬byteAt s 0 &&& 0o200 = 0 := by rw [and_0o200_eq_zero_iff _ hc]; exact h7
  by_cases h6 : byteAt s 0 < 0xC0
  · -- a continuation byte in first place
    refine .inr (.inr (.inr (herr 1 Nat.one_pos ?_)))
    simp [charntorune, hlen, h7', (and_0o100_eq_zero_iff _ hc (by omega)).mpr h6]
  have h6' : ¬byteAt s 0 &&& 0o100 = 0 := by rw [and_0o100_eq_zero_iff _ hc (by omega)]; exact h6
  have hlead : 0xC0 ≤ byteAt s 0 := by omega
  rcases utftab_getD_cases hc hlead with hn | ⟨hn2, hn6⟩
  · -- a byte that starts no sequence
    refine .inr (.inr (.inr (herr 1 Nat.one_pos ?_)))
    simp only [charntorune, hlen, h7', h6', hn, if_false, if_true]
  set n := utftab.getD (byteAt s 0 &&& 0o77) 0 with hn_def
  by_cases hlen1 : len = 1
  · -- the lead byte alone
    have hpre : SeqPrefix s n len :=
      ⟨hlead, rfl, hn2, fun j hj => absurd hj (by omega), fun h => absurd h (by omega)⟩
    exact .inl ⟨charntorune_of_seqPrefix hpre (by omega) (by omega), .inr ⟨n, by omega, hpre⟩⟩
  by_cases hb : 0x80 ≤ byteAt s 1 ∧ byteAt s 1 < 0xC0
  swap
  · -- no continuation byte after the lead byte
    refine .inr (.inr (.inr (herr 1 Nat.one_pos ?_)))
    have hb' : byteAt s 1 &&& 0o300 ≠ 0o200 := fun h => hb ((cont_iff s 1).mp h)
    simp only [charntorune, hlen, h7', h6', ← hn_def, show n ≠ 0 by omega, hlen1, hb', if_false, if_true, ne_eq,
      not_false_eq_true]
  by_cases hover : leadValue s n ≤ 255 / 2 ^ n
  · -- an overlong start
    refine .inr (.inr (.inr (herr 2 Nat.two_pos ?_)))
    simp only [charntorune, hlen, h7', h6', ← hn_def, show n ≠ 0 by omega, hlen1, (cont_iff s 1).mpr hb,
      lead_or_eq s (show n ≤ 8 by omega), if_false, ne_eq, not_true_eq_false]
    simp only [Nat.shiftRight_eq_div_pow, hover, if_true]
  by_cases hall : ContBytes s 2 (min len n - 2)
  · -- the bytes up to min len n are those of a sequence of the shape
    have hcont : ContBytes s 1 (min len n - 1) := by
      rw [show min len n - 1 = min len n - 2 + 1 by omega]
      exact contBytes_succ.mpr ⟨hb, hall⟩
    by_cases hlt : len < n
    · have hpre : SeqPrefix s n len :=
        ⟨hlead, rfl, hn2, by rwa [min_eq_left hlt.le] at hcont, fun _ => not_le.mp hover⟩
      exact .inl ⟨charntorune_of_seqPrefix hpre (by omega) hlt, .inr ⟨n, hlt, hpre⟩⟩
    · have hseq : SeqPrefix s n n :=
        ⟨hlead, rfl, hn2, by rwa [min_eq_right (not_lt.mp hlt)] at hcont, fun _ => not_le.mp hover⟩
      have hval := charntorune_of_seq hseq (not_lt.mp hlt)
      by_cases hv : isvalidrune (seqValue s n) = true
      · rw [if_pos hv] at hval
        exact .inr (.inr (.inl ⟨n, not_lt.mp hlt, hseq, hv, hval⟩))
      · rw [if_neg hv] at hval
        exact .inr (.inr (.inr (herr n (by omega) hval)))
  · -- the loop stops at a byte that is not a continuation byte
    have heq := @charntorune_eq_loop s len n (by omega) hlead hn_def.symm hn2 hn6 hb (not_le.mp hover)
    obtain ⟨hnone, hle, hlt⟩ := charntoruneLoop_of_not_contBytes (leadValue s n) hall
    rcases hloop : charntoruneLoop s (min len n - 2) 2 (leadValue s n) with ⟨i, v⟩
    rw [hloop] at hnone hle hlt heq
    dsimp only at hnone hle hlt
    subst hnone
    exact .inr (.inr (.inr (herr i (by omega) heq)))

/-! ## The shortest encoding -/

/-- What isvalidrune accepts is a Unicode scalar value. -/
theorem isvalidrune_bounds {r : Int} (h : isvalidrune r = true) :
    0 ≤ r ∧ r ≤ 0x10ffff ∧ ¬(0xd800 ≤ r ∧ r ≤ 0xdfff) := by
  unfold isvalidrune at h
  split_ifs at h with h1 h2 h3 h4 h5
  exact ⟨by omega, by omega, h2⟩

/-- The character of a code point isvalidrune accepts. -/
theorem toNat_ofNat_of_isvalidrune {v : Nat} (h : isvalidrune v = true) : (Char.ofNat v).toNat = v := by
  obtain ⟨-, hle, hsur⟩ := isvalidrune_bounds h
  apply toNat_ofNat_of_isValidChar
  simp only [Nat.isValidChar]
  omega

/-- The lead byte of a sequence of each length. -/
theorem seqPrefix_lead {s : List UInt8} {n k : Nat} (h : SeqPrefix s n k) :
    (n = 2 ∧ 0xC2 ≤ byteAt s 0 ∧ byteAt s 0 < 0xE0) ∨ (n = 3 ∧ 0xE0 ≤ byteAt s 0 ∧ byteAt s 0 < 0xF0) ∨
      (n = 4 ∧ 0xF0 ≤ byteAt s 0 ∧ byteAt s 0 < 0xF8) ∨ (n = 5 ∧ 0xF8 ≤ byteAt s 0 ∧ byteAt s 0 < 0xFC) ∨
      (n = 6 ∧ 0xFC ≤ byteAt s 0 ∧ byteAt s 0 < 0xFE) := by
  have hn := h.length_eq
  have h2 := h.two_le
  have hlead := h.lead
  rw [utftab_getD _ (byteAt_lt s 0) h.lead] at hn
  split_ifs at hn <;> omega

/-- Bytes whose values are those of an encoding are that encoding. -/
theorem range_map_getD_eq {s : List UInt8} {n : Nat} {c : Char}
    (h : (List.range n).map (byteAt s) = (String.utf8EncodeChar c).map UInt8.toNat) :
    (List.range n).map (fun i => s.getD i 0) = String.utf8EncodeChar c := by
  apply List.map_injective_iff.mpr (fun _ _ hab => UInt8.toNat_inj.mp hab)
  rw [List.map_map]
  exact h

/-- A whole sequence of the shape whose rune isvalidrune accepts is the
shortest encoding of that rune: sequences of five and six bytes have runes
from 0x200000 on, and the overlong test leaves shortest forms only. -/
theorem seq_eq_utf8EncodeChar {s : List UInt8} {n : Nat} (h : SeqPrefix s n n) (hv : isvalidrune (seqValue s n) = true) :
    (List.range n).map (byteAt s) = (String.utf8EncodeChar (Char.ofNat (seqValue s n))).map UInt8.toNat := by
  have hbound := isvalidrune_bounds hv
  have hover := h.not_overlong h.two_le
  rw [map_toNat_utf8EncodeChar, toNat_ofNat_of_isvalidrune hv]
  have hb : ∀ j, 1 ≤ j → j < n → 0x80 ≤ byteAt s j ∧ byteAt s j < 0xC0 := fun j h1 h2 => by
    have := h.cont (j - 1) (by omega)
    rwa [show 1 + (j - 1) = j by omega] at this
  rcases seqPrefix_lead h with ⟨rfl, hc⟩ | ⟨rfl, hc⟩ | ⟨rfl, hc⟩ | ⟨rfl, hc⟩ | ⟨rfl, hc⟩
  · -- two bytes: 0x80 to 0x7FF
    have hval : seqValue s 2 = byteAt s 0 % 64 * 64 + byteAt s 1 % 64 := rfl
    change 63 < byteAt s 0 % 64 * 64 + byteAt s 1 % 64 at hover
    have h1 := hb 1
    rw [hval, if_neg (by omega), if_pos (by omega)]
    show [byteAt s 0, byteAt s 1] = _
    simp only [List.cons.injEq, and_true]
    omega
  · -- three bytes: 0x800 to 0xFFFF
    have hval : seqValue s 3 = (byteAt s 0 % 32 * 64 + byteAt s 1 % 64) * 64 + byteAt s 2 % 64 := rfl
    change 31 < byteAt s 0 % 32 * 64 + byteAt s 1 % 64 at hover
    have h1 := hb 1
    have h2 := hb 2
    rw [hval, if_neg (by omega), if_neg (by omega), if_pos (by omega)]
    show [byteAt s 0, byteAt s 1, byteAt s 2] = _
    simp only [List.cons.injEq, and_true]
    omega
  · -- four bytes: 0x10000 to 0x10FFFF
    have hval : seqValue s 4 =
        ((byteAt s 0 % 16 * 64 + byteAt s 1 % 64) * 64 + byteAt s 2 % 64) * 64 + byteAt s 3 % 64 := rfl
    change 15 < byteAt s 0 % 16 * 64 + byteAt s 1 % 64 at hover
    rw [hval] at hbound
    have h1 := hb 1
    have h2 := hb 2
    have h3 := hb 3
    rw [hval, if_neg (by omega), if_neg (by omega), if_neg (by omega)]
    show [byteAt s 0, byteAt s 1, byteAt s 2, byteAt s 3] = _
    simp only [List.cons.injEq, and_true]
    omega
  · -- five bytes build a rune from 0x200000 on
    have hval : seqValue s 5 =
        (((byteAt s 0 % 8 * 64 + byteAt s 1 % 64) * 64 + byteAt s 2 % 64) * 64 + byteAt s 3 % 64) * 64 +
          byteAt s 4 % 64 := rfl
    change 7 < byteAt s 0 % 8 * 64 + byteAt s 1 % 64 at hover
    rw [hval] at hbound
    omega
  · -- six bytes build a rune from 0x4000000 on
    have hval : seqValue s 6 =
        ((((byteAt s 0 % 4 * 64 + byteAt s 1 % 64) * 64 + byteAt s 2 % 64) * 64 + byteAt s 3 % 64) * 64 +
          byteAt s 4 % 64) * 64 + byteAt s 5 % 64 := rfl
    change 3 < byteAt s 0 % 4 * 64 + byteAt s 1 % 64 at hover
    rw [hval] at hbound
    omega

/-- The bytes of an encoding followed by anything. -/
theorem byteAt_utf8EncodeChar_append {c : Char} {l : List Nat} (hmap : (String.utf8EncodeChar c).map UInt8.toNat = l)
    (t : List UInt8) (i : Nat) (hi : i < l.length) : byteAt (String.utf8EncodeChar c ++ t) i = l.getD i 0 := by
  have hlen : (String.utf8EncodeChar c).length = l.length := by rw [← hmap, List.length_map]
  rw [byteAt_append_of_lt t (by omega), hmap]

/-- The shortest encoding of a code point from 0x80 on, followed by
anything, starts with a whole sequence of the shape, as long as the
encoding, whose rune is the code point. -/
theorem seqPrefix_utf8EncodeChar (c : Char) (hc : 0x80 ≤ c.toNat) (t : List UInt8) :
    SeqPrefix (String.utf8EncodeChar c ++ t) (String.utf8EncodeChar c).length (String.utf8EncodeChar c).length ∧
      seqValue (String.utf8EncodeChar c ++ t) (String.utf8EncodeChar c).length = c.toNat := by
  have hmap := map_toNat_utf8EncodeChar c
  have hmax := toNat_lt c
  have hl : (String.utf8EncodeChar c).length = ((String.utf8EncodeChar c).map UInt8.toNat).length :=
    (List.length_map _).symm
  have hb := fun i hi => byteAt_utf8EncodeChar_append hmap t i hi
  rw [if_neg (by omega)] at hmap hb
  by_cases h2 : c.toNat < 0x800
  · -- two bytes
    rw [if_pos h2] at hmap hb
    have b0 := hb 0 (by simp)
    have b1 := hb 1 (by simp)
    simp only [List.getD_cons_zero, List.getD_cons_succ] at b0 b1
    rw [hl, hmap]
    simp only [List.length_cons, List.length_nil, Nat.reduceAdd]
    refine ⟨⟨by omega, ?_, le_refl 2, fun j hj => ?_, fun _ => ?_⟩, ?_⟩
    · rw [utftab_getD _ (byteAt_lt _ 0) (by omega), b0]
      split_ifs <;> omega
    · rw [show 1 + j = 1 by omega, b1]
      omega
    · simp only [leadValue, b0, b1]
      omega
    · simp only [seqValue, leadValue, Nat.reduceSub, contValue, b0, b1]
      omega
  rw [if_neg h2] at hmap hb
  by_cases h3 : c.toNat < 0x10000
  · -- three bytes
    rw [if_pos h3] at hmap hb
    have b0 := hb 0 (by simp)
    have b1 := hb 1 (by simp)
    have b2 := hb 2 (by simp)
    simp only [List.getD_cons_zero, List.getD_cons_succ] at b0 b1 b2
    rw [hl, hmap]
    simp only [List.length_cons, List.length_nil, Nat.reduceAdd]
    refine ⟨⟨by omega, ?_, by decide, fun j hj => ?_, fun _ => ?_⟩, ?_⟩
    · rw [utftab_getD _ (byteAt_lt _ 0) (by omega), b0]
      split_ifs <;> omega
    · rcases (show j = 0 ∨ j = 1 by omega) with rfl | rfl
      · rw [b1]; omega
      · rw [b2]; omega
    · simp only [leadValue, b0, b1]
      omega
    · simp only [seqValue, leadValue, Nat.reduceSub, contValue, b0, b1, b2]
      omega
  -- four bytes
  rw [if_neg h3] at hmap hb
  have b0 := hb 0 (by simp)
  have b1 := hb 1 (by simp)
  have b2 := hb 2 (by simp)
  have b3 := hb 3 (by simp)
  simp only [List.getD_cons_zero, List.getD_cons_succ] at b0 b1 b2 b3
  rw [hl, hmap]
  simp only [List.length_cons, List.length_nil, Nat.reduceAdd]
  refine ⟨⟨by omega, ?_, by decide, fun j hj => ?_, fun _ => ?_⟩, ?_⟩
  · rw [utftab_getD _ (byteAt_lt _ 0) (by omega), b0]
    split_ifs <;> omega
  · rcases (show j = 0 ∨ j = 1 ∨ j = 2 by omega) with rfl | rfl | rfl
    · rw [b1]; omega
    · rw [b2]; omega
    · rw [b3]; omega
  · simp only [leadValue, b0, b1]
    omega
  · simp only [seqValue, leadValue, Nat.reduceSub, contValue, b0, b1, b2, b3]
    omega


/-- charntorune decodes the shortest encoding of every rune isvalidrune
accepts, whatever follows it, once len covers it. -/
theorem charntorune_utf8EncodeChar (c : Char) (hc : isvalidrune c.toNat = true) (t : List UInt8) {len : Nat}
    (hlen : (String.utf8EncodeChar c).length ≤ len) :
    charntorune (String.utf8EncodeChar c ++ t) len = ((String.utf8EncodeChar c).length, some (c.toNat : Int)) := by
  by_cases h1 : c.toNat < 0x80
  · -- one byte below 0x80
    have hmap := map_toNat_utf8EncodeChar c
    rw [if_pos h1] at hmap
    have hl : (String.utf8EncodeChar c).length = 1 := by rw [← List.length_map UInt8.toNat, hmap]; rfl
    have b0 := byteAt_utf8EncodeChar_append hmap t 0 (by simp)
    simp only [List.getD_cons_zero] at b0
    have h7 : c.toNat &&& 0o200 = 0 := (and_0o200_eq_zero_iff _ (by omega)).mpr h1
    rw [hl] at hlen ⊢
    simp only [charntorune, show len ≠ 0 by omega, b0, h7, if_true, if_false]
  · obtain ⟨hseq, hval⟩ := seqPrefix_utf8EncodeChar c (by omega) t
    rw [charntorune_of_seq hseq hlen, hval, if_pos hc]

/-- A rune other than Runeerror that charntorune stores is a character whose
shortest encoding is the bytes it took. -/
theorem charntorune_sound {s : List UInt8} {len : Nat} {p : Int} (hp : (charntorune s len).2 = some p)
    (herr : p ≠ runeError) :
    ∃ c : Char, p = c.toNat ∧ (List.range (charntorune s len).1).map (fun i => s.getD i 0) = String.utf8EncodeChar c := by
  rcases charntorune_cases s len with ⟨h0, -⟩ | ⟨-, h7, h1⟩ | ⟨n, -, hseq, hv, hn⟩ | ⟨-, herr'⟩
  · rw [h0] at hp
    cases hp
  · -- a byte below 0x80 is its own encoding
    rw [h1] at hp ⊢
    cases hp
    have hc : (Char.ofNat (byteAt s 0)).toNat = byteAt s 0 :=
      toNat_ofNat_of_isValidChar (by simp only [Nat.isValidChar]; omega)
    refine ⟨Char.ofNat (byteAt s 0), by rw [hc], range_map_getD_eq ?_⟩
    rw [map_toNat_utf8EncodeChar, hc, if_pos h7]
    rfl
  · rw [hn] at hp ⊢
    cases hp
    exact ⟨Char.ofNat (seqValue s n), by rw [toNat_ofNat_of_isvalidrune hv], range_map_getD_eq (seq_eq_utf8EncodeChar hseq hv)⟩
  · rw [herr'] at hp
    cases hp
    exact absurd rfl herr

/-- charntorune takes no byte exactly when len is 0 or the bytes up to len
are a proper prefix of a sequence of the shape. -/
theorem charntorune_eq_zero_iff (s : List UInt8) (len : Nat) :
    (charntorune s len).1 = 0 ↔ len = 0 ∨ ∃ n, len < n ∧ SeqPrefix s n len := by
  constructor
  · intro h0
    rcases charntorune_cases s len with ⟨-, h⟩ | ⟨-, -, h1⟩ | ⟨n, -, hseq, -, hn⟩ | ⟨hpos, -⟩
    · exact h
    · rw [h1] at h0
      cases h0
    · rw [hn] at h0
      have := hseq.two_le
      simp only at h0
      omega
    · omega
  · rintro (rfl | ⟨n, hlt, hpre⟩)
    · simp [charntorune]
    · by_cases hz : len = 0
      · subst hz
        simp [charntorune]
      · rw [charntorune_of_seqPrefix hpre (by omega) hlt]

/-- charntorune decodes shortest encodings: the encoding of every rune
isvalidrune accepts is decoded whole, every rune other than Runeerror comes
from its shortest encoding, and nothing is taken exactly when len is 0 or
the bytes up to len are a proper prefix of a sequence of the decoder's
shape. -/
theorem charntorune_decodes_shortest :
    (∀ c : Char, isvalidrune c.toNat = true → ∀ (t : List UInt8) (len : Nat), (String.utf8EncodeChar c).length ≤ len →
      charntorune (String.utf8EncodeChar c ++ t) len = ((String.utf8EncodeChar c).length, some (c.toNat : Int))) ∧
    (∀ (s : List UInt8) (len : Nat) (p : Int), (charntorune s len).2 = some p → p ≠ runeError →
      ∃ c : Char, p = c.toNat ∧
        (List.range (charntorune s len).1).map (fun i => s.getD i 0) = String.utf8EncodeChar c) ∧
    (∀ (s : List UInt8) (len : Nat), (charntorune s len).1 = 0 ↔ len = 0 ∨ ∃ n, len < n ∧ SeqPrefix s n len) :=
  ⟨fun c hc t _ hlen => charntorune_utf8EncodeChar c hc t hlen, fun _ _ _ hp herr => charntorune_sound hp herr,
    charntorune_eq_zero_iff⟩

/-- The byte 0xF8 with len 1: charntorune returns 0 for more bytes, though
no shortest encoding starts with 0xF8 and no bytes after it make
charntorune store a rune other than Runeerror. -/
theorem charntorune_zero_on_dead_prefix :
    charntorune [0xF8] 1 = (0, none) ∧ (∀ c : Char, (String.utf8EncodeChar c).head? ≠ some 0xF8) ∧
      ∀ (t : List UInt8) (len : Nat) (p : Int), (charntorune (0xF8 :: t) len).2 = some p → p = runeError := by
  have hhead : ∀ c : Char, (String.utf8EncodeChar c).head? ≠ some 0xF8 := fun c h => by
    have := head_utf8EncodeChar_lt c h
    simp at this
  refine ⟨by decide, hhead, fun t len p hp => ?_⟩
  by_contra herr
  obtain ⟨c, -, hbytes⟩ := charntorune_sound hp herr
  -- a stored rune means the lead byte 0xF8 was taken
  have hpos : 0 < (charntorune (0xF8 :: t) len).1 := by
    rcases charntorune_cases (0xF8 :: t) len with ⟨h0, -⟩ | ⟨-, -, h1⟩ | ⟨n, -, hseq, -, hn⟩ | ⟨hpos, -⟩
    · rw [h0] at hp
      cases hp
    · rw [h1]
      exact Nat.one_pos
    · rw [hn]
      exact Nat.lt_of_lt_of_le Nat.two_pos hseq.two_le
    · exact hpos
  obtain ⟨k, hk⟩ := Nat.exists_eq_succ_of_ne_zero (Nat.pos_iff_ne_zero.mp hpos)
  rw [hk, List.range_succ_eq_map, List.map_cons] at hbytes
  exact hhead c (by rw [← hbytes]; rfl)

/-! ## utfnlen counts the calls of charntorune -/

/-- A lead byte of utfnlen is a byte that charntorune finds neither below
0x80 nor a continuation byte. -/
theorem and_0o300_ne_0o300_iff (s : List UInt8) :
    byteAt s 0 &&& 0o300 ≠ 0o300 ↔ byteAt s 0 &&& 0o200 = 0 ∨ byteAt s 0 &&& 0o100 = 0 := by
  have hc := byteAt_lt s 0
  rw [ne_eq, and_0o300_eq_0o300_iff _ hc, and_0o200_eq_zero_iff _ hc]
  by_cases h : 0x80 ≤ byteAt s 0
  · rw [and_0o100_eq_zero_iff _ hc h]
    omega
  · omega

/-- A turn of utfnlen moves s by what charntorune returns, and returns where
charntorune returns 0. -/
theorem utfnlenTurn_eq (s : List UInt8) (len : Nat) :
    utfnlenTurn s len = if (charntorune s len).1 = 0 then none else some (charntorune s len).1 := by
  unfold utfnlenTurn charntorune
  by_cases hlen : len = 0
  · simp [hlen]
  by_cases hbyte : byteAt s 0 &&& 0o300 ≠ 0o300
  · -- one byte either way: below 0x80, or a continuation byte
    rcases (and_0o300_ne_0o300_iff s).mp hbyte with h7 | h6
    · simp [hlen, hbyte, h7]
    · by_cases h7 : byteAt s 0 &&& 0o200 = 0
      · simp [hlen, hbyte, h7]
      · simp [hlen, hbyte, h7, h6]
  have h7 : ¬byteAt s 0 &&& 0o200 = 0 := fun h => hbyte ((and_0o300_ne_0o300_iff s).mpr (.inl h))
  have h6 : ¬byteAt s 0 &&& 0o100 = 0 := fun h => hbyte ((and_0o300_ne_0o300_iff s).mpr (.inr h))
  have hlead : 0xC0 ≤ byteAt s 0 := by
    rw [← and_0o300_eq_0o300_iff _ (byteAt_lt s 0)]
    exact not_not.mp hbyte
  simp only [hlen, hbyte, h7, h6, if_false]
  set n := utftab.getD (byteAt s 0 &&& 0o77) 0
  set r := ((byteAt s 0 &&& 0o377 >>> n) <<< 6) ||| (byteAt s 1 &&& 0o77)
  -- the checks before the loop are the same in both
  by_cases hn : n = 0
  · simp [hn]
  by_cases hlen1 : len = 1
  · simp [hn, hlen1]
  by_cases hcont : byteAt s 1 &&& 0o300 ≠ 0o200
  · simp [hn, hlen1, hcont]
  by_cases hover : r ≤ 0o377 >>> n
  · simp [hn, hlen1, hcont, hover]
  simp only [hn, hlen1, hcont, hover, if_false]
  -- the loop: utfnlen's scan stops where charntorune's loop does
  have hn2 := ((utftab_getD_cases (byteAt_lt s 0) hlead).resolve_left hn).1
  rw [utfnlenScan_eq s _ 2 r]
  by_cases hall : ContBytes s 2 (min len n - 2)
  · -- all continuation bytes: both end at m = min len n
    have hm : 2 + (min len n - 2) = min len n := by omega
    rw [charntoruneLoop_of_contBytes r hall, hm]
    by_cases hlt : min len n < n
    · simp [hlt]
    · simp only [lt_irrefl, if_false, hlt]
      simp only [apply_ite Prod.fst, ite_self]
      rw [if_neg (by omega)]
  · obtain ⟨hnone, hle, hlt⟩ := charntoruneLoop_of_not_contBytes r hall
    rcases hloop : charntoruneLoop s (min len n - 2) 2 r with ⟨i, v⟩
    rw [hloop] at hnone hle hlt
    dsimp only at hnone hle hlt
    subst hnone
    -- both stop at the byte i, before m
    simp [show i < min len n by omega, show i ≠ 0 by omega]

/-- The loop of utfnlen adds to its count what runeSteps counts: each turn
stops where the walk stops and moves where the walk moves.  The induction is
on the fuel, which both spend one turn at a time. -/
theorem utfnlenLoop_eq (fuel : Nat) :
    ∀ (s : List UInt8) (len k : Nat), utfnlenLoop fuel s len k = k + runeSteps fuel s len := by
  induction fuel with
  | zero => intro s len k; rfl
  | succ fuel ih =>
    intro s len k
    by_cases hnul : byteAt s 0 = 0
    · simp [utfnlenLoop, runeSteps, hnul]
    by_cases hlen : len = 0
    · simp [utfnlenLoop, runeSteps, hnul, hlen, utfnlenTurn]
    simp only [utfnlenLoop, runeSteps, hnul, hlen, or_self, if_false, utfnlenTurn_eq]
    by_cases hz : (charntorune s len).1 = 0
    · simp [hz]
    · simp only [hz, if_false, ih]
      omega

/-- The walk ends within s.length + 1 calls: each call that goes on takes a
byte at least, and the NUL past the end stops it.  Any more fuel gives the
same count. -/
theorem runeSteps_fuel :
    ∀ (f g : Nat) (s : List UInt8) (len : Nat), s.length < f → s.length < g → runeSteps f s len = runeSteps g s len
  | 0, _, _, _, hf, _ => absurd hf (Nat.not_lt_zero _)
  | _ + 1, 0, _, _, _, hg => absurd hg (Nat.not_lt_zero _)
  | f + 1, g + 1, s, len, hf, hg => by
    simp only [runeSteps]
    split_ifs with hstop hz
    · rfl
    · rfl
    · -- the call takes a byte at least of a string that is not empty
      have hne := ne_nil_of_byteAt s (fun h => hstop (.inl h))
      have hpos := List.length_pos_iff.mpr hne
      have hdrop : (s.drop (charntorune s len).1).length < s.length := by
        rw [List.length_drop]
        omega
      rw [runeSteps_fuel f g _ _ (by omega) (by omega)]

/-- utfnlen counts the calls of charntorune that take bytes when the string
is walked call by call, until the next byte is NUL, len is used up or a call
returns 0; the walk needs at most s.length + 1 calls. -/
theorem utfnlen_eq_runeSteps (s : List UInt8) (len : Nat) {fuel : Nat} (hfuel : s.length < fuel) :
    utfnlen s len = runeSteps fuel s len := by
  rw [utfnlen, utfnlenLoop_eq, Nat.zero_add]
  exact runeSteps_fuel _ _ s len (Nat.lt_succ_self _) hfuel

/-- The string é A (0xC3 0xA9 0x41), walked with four calls. -/
theorem utfnlen_eq_runeSteps_two_runes :
    [0xC3, 0xA9, 0x41].length < 4 ∧ utfnlen [0xC3, 0xA9, 0x41] utfMax = runeSteps 4 [0xC3, 0xA9, 0x41] utfMax :=
  ⟨by decide, utfnlen_eq_runeSteps _ _ (by decide)⟩

example : utfnlen [0xC3, 0xA9, 0x41] utfMax = 2 := by decide

end Uinxed.Utf
