/-
  Lib/Runs.lean --- maximal runs of a labelling of the naturals.

  A labelling f : Nat → Option β gives some positions a label.  A run is an
  interval [start, stop) of positions that all carry one label; it is maximal
  when the position before it and the position at its stop do not carry that
  label.  Two maximal runs that share a position are the same run
  (MaxRun.eq_of_mem).

  scan groups the positions of a list into runs from left to right, the way a
  loop with an open run does: a position without a label closes the open run,
  and one whose label differs, or that does not follow the open run, closes it
  and opens a new one.  Over the consecutive positions lo, ..., lo + n - 1 of a
  labelling that labels nothing outside them, scan returns exactly the maximal
  runs (mem_scan_iff).  The proof is by induction on the positions, with the
  open run as the invariant (OpenOk): soundness (maxRun_of_mem_scan) and
  coverage (exists_mem_scan) separately, joined by eq_of_mem.
-/
import Mathlib.Data.List.Basic

set_option autoImplicit false

namespace Runs

/-- A run of positions: the first, one past the last, and the label. -/
structure Run (β : Type) where
  start : Nat
  stop : Nat
  label : β
  deriving DecidableEq, Repr

variable {β : Type}

/-- [r.start, r.stop) is a maximal run of f. -/
structure MaxRun (f : Nat → Option β) (r : Run β) : Prop where
  /-- The run is not empty. -/
  lt : r.start < r.stop
  /-- Every position of the run carries its label. -/
  label : ∀ i, r.start ≤ i → i < r.stop → f i = some r.label
  /-- The position before the run does not carry its label. -/
  left : ∀ i, i + 1 = r.start → f i ≠ some r.label
  /-- The position at its stop does not carry its label. -/
  right : f r.stop ≠ some r.label

variable {f : Nat → Option β}

/-- A maximal run that shares a position with another starts no later than it. -/
theorem MaxRun.start_le {r r' : Run β} (h : MaxRun f r) (h' : MaxRun f r') {i : Nat}
    (hi : r.start ≤ i ∧ i < r.stop) (hi' : r'.start ≤ i ∧ i < r'.stop) : r.start ≤ r'.start := by
  by_contra hlt
  -- the position before r lies inside r', so it carries the label of r' = that of r
  have hl : r.label = r'.label := by
    have := (h.label i hi.1 hi.2).symm.trans (h'.label i hi'.1 hi'.2)
    exact Option.some.inj this
  have hin := h'.label (r.start - 1) (by omega) (by omega)
  exact h.left (r.start - 1) (by omega) (hl ▸ hin)

/-- A maximal run that shares a position with another stops no later than it. -/
theorem MaxRun.stop_le {r r' : Run β} (h : MaxRun f r) (h' : MaxRun f r') {i : Nat}
    (hi : r.start ≤ i ∧ i < r.stop) (hi' : r'.start ≤ i ∧ i < r'.stop) : r.stop ≤ r'.stop := by
  by_contra hlt
  have hl : r'.label = r.label := by
    have := (h'.label i hi'.1 hi'.2).symm.trans (h.label i hi.1 hi.2)
    exact Option.some.inj this
  -- the stop of r' lies inside r
  have hin := h.label r'.stop (by omega) (by omega)
  exact h'.right (hl ▸ hin)

/-- Two maximal runs that share a position are the same run. -/
theorem MaxRun.eq_of_mem {r r' : Run β} (h : MaxRun f r) (h' : MaxRun f r') {i : Nat}
    (hi : r.start ≤ i ∧ i < r.stop) (hi' : r'.start ≤ i ∧ i < r'.stop) : r = r' := by
  have hstart := Nat.le_antisymm (h.start_le h' hi hi') (h'.start_le h hi' hi)
  have hstop := Nat.le_antisymm (h.stop_le h' hi hi') (h'.stop_le h hi' hi)
  have hlabel : r.label = r'.label := Option.some.inj ((h.label i hi.1 hi.2).symm.trans (h'.label i hi'.1 hi'.2))
  cases r
  cases r'
  simp only at hstart hstop hlabel
  rw [hstart, hstop, hlabel]

/-- The run open before position k: none after a position without a label,
or a run of f up to k that cannot be extended to the left. -/
def OpenOk (f : Nat → Option β) (k : Nat) : Option (Run β) → Prop
  | none => ∀ i, i + 1 = k → f i = none
  | some r => r.stop = k ∧ r.start < k ∧ (∀ i, r.start ≤ i → i < k → f i = some r.label) ∧
      ∀ i, i + 1 = r.start → f i ≠ some r.label

/-- An open run that the position at its stop does not continue is maximal. -/
theorem maxRun_of_openOk {k : Nat} {r : Run β} (h : OpenOk f k (some r)) (hk : f k ≠ some r.label) :
    MaxRun f r := by
  obtain ⟨hstop, hlt, hlabel, hleft⟩ := h
  subst hstop
  exact ⟨hlt, hlabel, hleft, hk⟩

/-- A run opened at a labelled position k with nothing open before it. -/
theorem openOk_open {k : Nat} {b : β} (hk : f k = some b) (h : ∀ i, i + 1 = k → f i ≠ some b) :
    OpenOk f (k + 1) (some ⟨k, k + 1, b⟩) :=
  ⟨rfl, Nat.lt_succ_self k, fun i hi hi' => by dsimp only at hi hi'; rw [show i = k by omega]; exact hk, h⟩

/-- The open run extended by the position at its stop. -/
theorem openOk_extend {k : Nat} {r : Run β} (h : OpenOk f k (some r)) (hk : f k = some r.label) :
    OpenOk f (k + 1) (some { r with stop := k + 1 }) := by
  obtain ⟨-, hlt, hlabel, hleft⟩ := h
  refine ⟨rfl, by simp only; omega, fun i hi hi' => ?_, hleft⟩
  rcases Nat.lt_succ_iff_lt_or_eq.mp hi' with hi' | rfl
  · exact hlabel i hi hi'
  · exact hk

/-- A position of the list after k, or k itself, as the invariant of
exists_mem_scan sees it once the run open at k + 1 holds k. -/
theorem at_or_after {k m i : Nat} {r : Run β} (hr : r.start ≤ k ∧ r.stop = k + 1) (hi : k ≤ i ∧ i < k + (m + 1) ∧ f i ≠ none) :
    (r.start ≤ i ∧ i < r.stop) ∨ (k + 1 ≤ i ∧ i < k + 1 + m ∧ f i ≠ none) := by
  rcases Nat.eq_or_lt_of_le hi.1 with rfl | hlt
  · exact .inl ⟨hr.1, by omega⟩
  · exact .inr ⟨hlt, by omega, hi.2.2⟩

variable [DecidableEq β]

/-- Group the positions of a list into runs of f, cur being the run open
before the list. -/
def scan (f : Nat → Option β) : Option (Run β) → List Nat → List (Run β)
  | cur, [] => cur.toList
  | cur, i :: is =>
    match f i, cur with
    | none, cur => cur.toList ++ scan f none is
    | some b, none => scan f (some ⟨i, i + 1, b⟩) is
    | some b, some r =>
      if r.stop = i ∧ r.label = b then scan f (some { r with stop := i + 1 }) is
      else r :: scan f (some ⟨i, i + 1, b⟩) is

@[simp] theorem scan_nil (cur : Option (Run β)) : scan f cur [] = cur.toList := rfl

theorem scan_cons_none {cur : Option (Run β)} {i : Nat} {is : List Nat} (hi : f i = none) :
    scan f cur (i :: is) = cur.toList ++ scan f none is := by
  simp only [scan, hi]

theorem scan_cons_open {i : Nat} {is : List Nat} {b : β} (hi : f i = some b) :
    scan f none (i :: is) = scan f (some ⟨i, i + 1, b⟩) is := by
  simp only [scan, hi]

theorem scan_cons_some {r : Run β} {i : Nat} {is : List Nat} {b : β} (hi : f i = some b) :
    scan f (some r) (i :: is) = if r.stop = i ∧ r.label = b then scan f (some { r with stop := i + 1 }) is
      else r :: scan f (some ⟨i, i + 1, b⟩) is := by
  simp only [scan, hi]

/-- Every run scan returns over consecutive positions is maximal, when the
position after them has no label. -/
theorem maxRun_of_mem_scan {k m : Nat} {cur : Option (Run β)} (h : OpenOk f k cur)
    (hend : f (k + m) = none) : ∀ r ∈ scan f cur (List.range' k m), MaxRun f r := by
  induction m generalizing k cur with
  | zero =>
    -- the open run is closed by the unlabelled position k
    intro r hr
    cases cur with
    | none => cases hr
    | some r' =>
      rw [List.range'_zero, scan_nil, Option.toList_some, List.mem_singleton] at hr
      subst hr
      exact maxRun_of_openOk h (by rw [← Nat.add_zero k, hend]; simp)
  | succ m ih =>
    have hend' : f (k + 1 + m) = none := by rw [← hend]; congr 1; omega
    intro r hr
    rw [List.range'_succ] at hr
    rcases hk : f k with _ | b
    · -- k has no label: the open run stops at k, and nothing is open after it
      rw [scan_cons_none hk] at hr
      rcases List.mem_append.mp hr with hr | hr
      · cases cur with
        | none => cases hr
        | some r' =>
          rw [Option.toList_some, List.mem_singleton] at hr
          subst hr
          exact maxRun_of_openOk h (by rw [hk]; simp)
      · exact ih (show OpenOk f (k + 1) none from fun i hi => by rw [show i = k by omega]; exact hk) hend' r hr
    cases cur with
    | none =>
      rw [scan_cons_open hk] at hr
      exact ih (openOk_open hk fun i hi => by rw [h i hi]; simp) hend' r hr
    | some r' =>
      rw [scan_cons_some hk] at hr
      split at hr
      · next hc =>
        exact ih (openOk_extend h (by rw [hk, hc.2])) hend' r hr
      · next hc =>
        obtain ⟨hstop, hlt, hlabel, hleft⟩ := h
        -- the open run ends at k, whose label differs from its own
        have hne : r'.label ≠ b := fun he => hc ⟨hstop, he⟩
        rcases List.mem_cons.mp hr with rfl | hr
        · exact maxRun_of_openOk ⟨hstop, hlt, hlabel, hleft⟩ (by rw [hk]; simpa using Ne.symm hne)
        · refine ih (openOk_open hk fun i hi => ?_) hend' r hr
          rw [hlabel i (by omega) (by omega)]
          simpa using hne

/-- Every position of the open run, and every labelled position of the list,
lies in a run that scan returns. -/
theorem exists_mem_scan {k m : Nat} {cur : Option (Run β)} (h : OpenOk f k cur) (i : Nat)
    (hi : (∃ r, cur = some r ∧ r.start ≤ i ∧ i < r.stop) ∨ (k ≤ i ∧ i < k + m ∧ f i ≠ none)) :
    ∃ r ∈ scan f cur (List.range' k m), r.start ≤ i ∧ i < r.stop := by
  induction m generalizing k cur with
  | zero =>
    rcases hi with ⟨r, rfl, hr⟩ | hi
    · exact ⟨r, by simp, hr⟩
    · omega
  | succ m ih =>
    rw [List.range'_succ]
    rcases hk : f k with _ | b
    · -- i is in the open run, closed here, or after k
      rw [scan_cons_none hk]
      rcases hi with ⟨r, rfl, hr⟩ | hi
      · exact ⟨r, by simp, hr⟩
      · have hik : i ≠ k := fun he => hi.2.2 (he ▸ hk)
        obtain ⟨r, hr, hri⟩ := ih (show OpenOk f (k + 1) none from fun j hj => by rw [show j = k by omega]; exact hk)
          (.inr ⟨by omega, by omega, hi.2.2⟩)
        exact ⟨r, List.mem_append_right _ hr, hri⟩
    cases cur with
    | none =>
      rw [scan_cons_open hk]
      refine ih (openOk_open hk fun j hj => by rw [h j hj]; simp) ?_
      rcases hi with ⟨r, hr, -⟩ | hi
      · cases hr
      · exact (at_or_after ⟨Nat.le_refl _, rfl⟩ hi).imp_left fun hri => ⟨_, rfl, hri⟩
    | some r' =>
      obtain ⟨hstop, hlt, hlabel, hleft⟩ := h
      rw [scan_cons_some hk]
      split
      · next hc =>
        refine ih (openOk_extend ⟨hstop, hlt, hlabel, hleft⟩ (by rw [hk, hc.2])) ?_
        rcases hi with ⟨r, hr, hri⟩ | hi
        · cases hr
          exact .inl ⟨_, rfl, hri.1, by simp only; omega⟩
        · exact (at_or_after ⟨by simp only; omega, rfl⟩ hi).imp_left fun hri => ⟨_, rfl, hri⟩
      · next hc =>
        have hne : r'.label ≠ b := fun he => hc ⟨hstop, he⟩
        rcases hi with ⟨r, hr, hri⟩ | hi
        · cases hr
          exact ⟨_, List.mem_cons_self, hri⟩
        · have hopen : OpenOk f (k + 1) (some ⟨k, k + 1, b⟩) := openOk_open hk fun j hj => by
            rw [hlabel j (by omega) (by omega)]
            simpa using hne
          obtain ⟨r, hr, hri⟩ := ih hopen ((at_or_after ⟨Nat.le_refl _, rfl⟩ hi).imp_left fun hri => ⟨_, rfl, hri⟩)
          exact ⟨r, List.mem_cons_of_mem _ hr, hri⟩

/-- Over the positions lo, ..., lo + n - 1 of a labelling that labels nothing
outside them, scan returns exactly the maximal runs. -/
theorem mem_scan_iff {lo n : Nat} (hout : ∀ i, (i < lo ∨ lo + n ≤ i) → f i = none) (r : Run β) :
    r ∈ scan f none (List.range' lo n) ↔ MaxRun f r := by
  have hopen : OpenOk f lo none := fun i hi => hout i (.inl (by omega))
  have hsound := maxRun_of_mem_scan hopen (hout (lo + n) (.inr (Nat.le_refl _)))
  refine ⟨hsound r, fun hr => ?_⟩
  -- the first position of r is labelled, so it lies in [lo, lo + n) and in a run of scan
  have hfirst := hr.label r.start (Nat.le_refl _) hr.lt
  have hin : lo ≤ r.start ∧ r.start < lo + n := by
    by_contra hn
    rw [hout r.start (by omega)] at hfirst
    cases hfirst
  obtain ⟨r', hr', hri⟩ := exists_mem_scan hopen r.start (.inr ⟨hin.1, hin.2, by rw [hfirst]; simp⟩)
  rwa [(hsound r' hr').eq_of_mem hr hri ⟨Nat.le_refl _, hr.lt⟩] at hr'

end Runs
