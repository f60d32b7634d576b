/-
  Process/ElfRead.lean --- what elf_source_read reads and copies.

  elf_source_read copies size bytes of the image at offset into the caller's
  buffer, and every range it asks of the image lies inside the image.  Read
  through the window, it keeps the window holding the image at its offset
  (WindowOk): a cached read copies bytes of the image, and a reload fills the
  window from the image before it copies.  The vfs_read loop fills its range
  whatever the amounts the calls return, as long as each is accepted
  (returns_vfsReadLoop); the two pieces of the buffer it writes in one step
  join by copyIn_append.
-/
import Uinxed.Process.ElfLoader

set_option autoImplicit false

namespace Uinxed.Process

open TraceExcept

/-! ## memcpy -/

@[simp] theorem copyIn_zero (buf : Nat → UInt8) (dst : Nat) (src : Nat → UInt8) : copyIn buf dst src 0 = buf := by
  funext j
  simp only [copyIn, Nat.add_zero]
  rw [if_neg (by omega)]

/-- Two copies of adjacent pieces of one source are one copy. -/
theorem copyIn_append {buf : Nat → UInt8} {dst a b : Nat} {src src' : Nat → UInt8}
    (h : ∀ i, src' i = src (a + i)) : copyIn (copyIn buf dst src a) (dst + a) src' b = copyIn buf dst src (a + b) := by
  funext j
  simp only [copyIn]
  by_cases h₁ : dst + a ≤ j ∧ j < dst + a + b
  · rw [if_pos h₁, if_pos (by omega), h]
    congr 1
    omega
  · rw [if_neg h₁]
    by_cases h₂ : dst ≤ j ∧ j < dst + a
    · rw [if_pos h₂, if_pos (by omega)]
    · rw [if_neg h₂, if_neg (by omega)]

/-- A copy reads only the first n bytes of its source. -/
theorem copyIn_congr {buf : Nat → UInt8} {dst n : Nat} {src src' : Nat → UInt8} (h : ∀ i < n, src i = src' i) :
    copyIn buf dst src n = copyIn buf dst src' n := by
  funext j
  simp only [copyIn]
  split
  · next hj => exact h (j - dst) (by omega)
  · rfl

/-! ## The vfs_read loop -/

variable {vfsRead : Nat → Nat → Nat} {image : Nat → UInt8}

/-- Every range the loop asks for ends at the end of what it reads. -/
theorem logsIn_vfsReadLoop (offset size dst : Nat) :
    ∀ fuel done buf, LogsIn (fun x : Nat × Nat => x.1 + x.2 ≤ offset + size)
      (vfsReadLoop vfsRead image offset size dst fuel done buf)
  | 0, _, _ => logsIn_pure _
  | fuel + 1, done, buf => by
    unfold vfsReadLoop
    split
    · next hlt =>
      refine logsIn_bind (logsIn_record (by dsimp only; omega)) fun _ => ?_
      dsimp only
      split
      · exact logsIn_throw _
      · exact logsIn_vfsReadLoop offset size dst fuel _ _
    · exact logsIn_pure _

/-- With fuel for what is left, an accepted loop fills the rest of its range
with the image. -/
theorem returns_vfsReadLoop (offset size dst : Nat) :
    ∀ fuel done buf, size ≤ done + fuel →
      Returns (· = copyIn buf (dst + done) (fun i => image (offset + done + i)) (size - done))
        (vfsReadLoop vfsRead image offset size dst fuel done buf)
  | 0, done, buf, hf => returns_pure (by rw [show size - done = 0 by omega, copyIn_zero])
  | fuel + 1, done, buf, hf => by
    unfold vfsReadLoop
    split
    · next hlt =>
      refine returns_bind (returns_record _) fun _ _ => ?_
      dsimp only
      split
      · exact returns_throw _
      · next hamount =>
        -- the call filled amount bytes; the rest of the loop fills the others
        refine (returns_vfsReadLoop offset size dst fuel _ _ (by omega)).mono fun buf' hbuf' => ?_
        rw [hbuf', ← Nat.add_assoc dst, copyIn_append (fun i => by congr 1; omega)]
        congr 1
        omega
    · next hge => exact returns_pure (by rw [show size - done = 0 by omega, copyIn_zero])

/-! ## elf_source_read -/

/-- The window holds the image at its offset. -/
def ElfSource.WindowOk (src : ElfSource) : Prop :=
  ∀ i < src.windowSize, src.window i = src.image (src.windowOffset + i)

/-- Every range elf_source_read asks of the image lies inside it. -/
theorem logsIn_elfSourceRead (src : ElfSource) (offset : Nat) (buf : Nat → UInt8) (dst size : Nat) :
    LogsIn (fun x : Nat × Nat => x.1 + x.2 ≤ src.size) (elfSourceRead vfsRead src offset buf dst size) := by
  unfold elfSourceRead
  split
  · exact logsIn_throw _
  · next hrange =>
    split
    · exact logsIn_bind (logsIn_record (by dsimp only; omega)) fun _ => logsIn_pure _
    split
    · exact logsIn_throw _
    split
    · refine logsIn_bind ?_ fun _ => logsIn_pure _
      split
      · exact logsIn_pure _
      · unfold ElfSource.loadWindow
        refine logsIn_bind ((logsIn_vfsReadLoop _ _ _ _ _ _).mono fun x hx => ?_) fun _ => logsIn_pure _
        -- the window is filled from offset to at most the end of the image
        have : min (src.size - offset) src.windowCapacity ≤ src.size - offset := Nat.min_le_left _ _
        omega
    · exact logsIn_bind ((logsIn_vfsReadLoop _ _ _ _ _ _).mono fun x hx => by omega) fun _ => logsIn_pure _

/-- What a read leaves of the source: the same image, and a window that still
holds it. -/
structure ElfSource.Keeps (src src' : ElfSource) : Prop where
  image : src'.image = src.image
  size : src'.size = src.size
  window : src'.WindowOk

theorem ElfSource.Keeps.refl {src : ElfSource} (hw : src.WindowOk) : src.Keeps src := ⟨rfl, rfl, hw⟩

theorem ElfSource.Keeps.trans {src src' src'' : ElfSource} (h : src.Keeps src') (h' : src'.Keeps src'') :
    src.Keeps src'' := ⟨h'.image.trans h.image, h'.size.trans h.size, h'.window⟩

/-- The window a cached read copies from holds the image there. -/
theorem window_of_cached {src : ElfSource} {offset size : Nat} (hw : src.WindowOk)
    (hc : src.cached offset size = true) :
    ∀ i < size, src.window (offset - src.windowOffset + i) = src.image (offset + i) := by
  simp only [ElfSource.cached, Bool.and_eq_true, decide_eq_true_eq] at hc
  intro i hi
  rw [hw _ (by omega)]
  congr 1
  omega

/-- elf_source_read copies the size bytes of the image at offset into the
buffer at dst, and keeps the window holding the image. -/
theorem returns_elfSourceRead {src : ElfSource} (hw : src.WindowOk) (offset : Nat) (buf : Nat → UInt8)
    (dst size : Nat) :
    Returns (fun r : ElfSource × (Nat → UInt8) => src.Keeps r.1 ∧ r.2 = copyIn buf dst (fun i => src.image (offset + i)) size)
      (elfSourceRead vfsRead src offset buf dst size) := by
  unfold elfSourceRead
  split
  · exact returns_throw _
  · next hrange =>
    split
    · exact returns_bind (returns_record _) fun _ _ => returns_pure ⟨.refl hw, rfl⟩
    split
    · exact returns_throw _
    split
    · next hwin =>
      -- the source the copy reads from holds the image over the range read
      refine returns_bind (P := fun src' => src.Keeps src' ∧
        ∀ i < size, src'.window (offset - src'.windowOffset + i) = src.image (offset + i)) ?_ fun src' h' => ?_
      · split
        · next hc => exact returns_pure ⟨.refl hw, window_of_cached hw hc⟩
        · unfold ElfSource.loadWindow
          refine returns_bind (returns_vfsReadLoop _ _ _ _ _ _ (by omega)) fun window hwindow => ?_
          have hmin : size ≤ min (src.size - offset) src.windowCapacity := Nat.le_min.mpr ⟨by omega, hwin.2⟩
          refine returns_pure ⟨⟨rfl, rfl, fun i hi => ?_⟩, fun i hi => ?_⟩
          · simp only at hi ⊢
            rw [hwindow, copyIn, if_pos (by omega)]
            simp
          · simp only
            rw [hwindow, copyIn, if_pos (by omega)]
            simp
      · exact returns_pure ⟨h'.1, copyIn_congr h'.2⟩
    · refine returns_bind (returns_vfsReadLoop _ _ _ _ _ _ (by omega)) fun buf' hbuf' => returns_pure ⟨.refl hw, ?_⟩
      rw [hbuf']
      simp

end Uinxed.Process
