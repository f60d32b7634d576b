/-
  Process/MmapShape.lean --- what the calls on mmap_list keep of its shape.

  The calls cut areas: vma_remove_range trims and splits the areas it
  reaches, sys_mprotect splits at the ends of its range, and
  process_unmap_complete_range drops whole areas.  Every area such a call
  leaves is a piece of an area it found (VmArea.Piece): a well-formed range
  inside it, with its backing, mapping each address to the page of the file
  the area mapped it to.  Carved R K l l' says l' is l with each area cut into
  ordered pieces, each related to its area by R, that still map every address
  of the area in K.  A cut list keeps MmapOk (MmapOk.carved), and what a
  lookup finds there is a piece of what it found before.

  vma_remove_range cuts the areas it reaches by removePieces and leaves the
  others (vmaRemoveRange_spec).  It keeps MmapOk when start <= end; on the
  range sys_munmap_full hands it when addr + pages wraps past 2^64, end lies
  below start and the split leaves two areas that overlap
  (sys_munmap_full_wraps_to_overlap).
-/
import Uinxed.Process.Mmap

set_option autoImplicit false

namespace Uinxed.Process

@[simp] theorem MmOutcome.cons_vmas (v : VmArea) (r : MmOutcome) : (r.cons v).vmas = v :: r.vmas := rfl
@[simp] theorem MmOutcome.cons_ret (v : VmArea) (r : MmOutcome) : (r.cons v).ret = r.ret := rfl
@[simp] theorem MmOutcome.emit_vmas (evs : List VmaEvent) (r : MmOutcome) : (r.emit evs).vmas = r.vmas := rfl
@[simp] theorem MmOutcome.emit_ret (evs : List VmaEvent) (r : MmOutcome) : (r.emit evs).ret = r.ret := rfl
@[simp] theorem MmOutcome.fail_vmas (l : List VmArea) (e : Int) : (MmOutcome.fail l e).vmas = l := rfl
@[simp] theorem MmOutcome.fail_ret (l : List VmArea) (e : Int) : (MmOutcome.fail l e).ret = e := rfl

/-! ## Pieces of an area -/

/-- What backs an area, apart from where in the file. -/
def VmArea.backing (v : VmArea) : VmRegionType × Option Nat × Option Nat × Bool × Bool × Bool :=
  (v.type, v.vmFile, v.vmPrivateData, v.vmPrivateGet, v.vmPrivatePut, v.vmPagecache)

/-- The page of the file an area maps at address a. -/
def VmArea.filePage (v : VmArea) (a : Nat) : Nat := v.vmPgoff + (a - v.start) / page4kSize

/-- p is a piece of v: a well-formed range inside v, with v's backing and its
page offset where v has it. -/
structure VmArea.Piece (v p : VmArea) : Prop where
  wf : p.WellFormed
  start_le : v.start ≤ p.start
  stop_le : p.stop ≤ v.stop
  backing : p.backing = v.backing
  pgoff : p.vmPgoff = v.filePage p.start

section Piece

variable {v p q : VmArea}

/-- A piece maps each of its addresses to the page of the file its area does. -/
theorem VmArea.Piece.filePage (h : v.Piece p) (hv : v.WellFormed) {a : Nat} (ha : p.start ≤ a) :
    p.filePage a = v.filePage a := by
  have hs := h.wf.start_aligned
  have hv' := hv.start_aligned
  have hle := h.start_le
  simp only [VmArea.filePage, h.pgoff]
  unfold page4kSize at *
  omega

theorem VmArea.Piece.refl (hv : v.WellFormed) : v.Piece v :=
  ⟨hv, Nat.le_refl _, Nat.le_refl _, rfl, by simp [VmArea.filePage]⟩

theorem VmArea.Piece.trans (hv : v.WellFormed) (h : v.Piece p) (h' : p.Piece q) : v.Piece q :=
  ⟨h'.wf, Nat.le_trans h.start_le h'.start_le, Nat.le_trans h'.stop_le h.stop_le, h'.backing.trans h.backing,
    h'.pgoff.trans (h.filePage hv h'.start_le)⟩

/-- The right half of a cut at an aligned address inside the area. -/
theorem VmArea.piece_rightOf (hv : v.WellFormed) {a : Nat} (h₁ : v.start ≤ a) (h₂ : a < v.stop)
    (ha : a % page4kSize = 0) : v.Piece (v.rightOf a) :=
  ⟨⟨h₂, ha, hv.stop_aligned, hv.le_top⟩, h₁, Nat.le_refl _, rfl, rfl⟩

/-- The left half of a cut at an aligned address inside the area. -/
theorem VmArea.piece_leftOf (hv : v.WellFormed) {a : Nat} (h₁ : v.start < a) (h₂ : a ≤ v.stop)
    (ha : a % page4kSize = 0) : v.Piece (v.leftOf a) :=
  ⟨⟨h₁, hv.start_aligned, ha, Nat.le_trans h₂ hv.le_top⟩, Nat.le_refl _, h₂, rfl, by simp [VmArea.leftOf, VmArea.filePage]⟩

end Piece

/-! ## Cut lists -/

/-- The pieces one area is cut into: in order, each related to the area by R,
and holding every address of the area in K. -/
structure PiecesOf (R : VmArea → VmArea → Prop) (K : Nat → Prop) (v : VmArea) (ps : List VmArea) : Prop where
  piece : ∀ p ∈ ps, v.Piece p ∧ R v p
  sorted : ps.Pairwise (fun a b => a.stop ≤ b.start)
  covers : ∀ a, v.start ≤ a → a < v.stop → K a → ∃ p ∈ ps, p.start ≤ a ∧ a < p.stop

/-- l' is l with each area cut into its pieces, in order. -/
inductive Carved (R : VmArea → VmArea → Prop) (K : Nat → Prop) : List VmArea → List VmArea → Prop
  | nil : Carved R K [] []
  | cons {v : VmArea} {ps l l' : List VmArea} : PiecesOf R K v ps → Carved R K l l' → Carved R K (v :: l) (ps ++ l')

section Carved

variable {R : VmArea → VmArea → Prop} {K : Nat → Prop} {v : VmArea} {l l' m m' : List VmArea}

/-- An area left whole. -/
theorem PiecesOf.self (hv : v.WellFormed) (hR : R v v) : PiecesOf R K v [v] :=
  ⟨by simpa using ⟨VmArea.Piece.refl hv, hR⟩, List.pairwise_singleton _ _,
    fun _ h₁ h₂ _ => ⟨v, List.mem_singleton_self v, h₁, h₂⟩⟩

theorem Carved.append (h : Carved R K l l') (h' : Carved R K m m') : Carved R K (l ++ m) (l' ++ m') := by
  induction h with
  | nil => exact h'
  | cons hp _ ih =>
    rw [List.cons_append, List.append_assoc]
    exact .cons hp ih

/-- Cutting each area of a list by a function. -/
theorem Carved.flatMap {g : VmArea → List VmArea} (hg : ∀ v ∈ l, PiecesOf R K v (g v)) :
    Carved R K l (l.flatMap g) := by
  induction l with
  | nil => exact .nil
  | cons v l ih =>
    rw [List.flatMap_cons]
    exact .cons (hg v List.mem_cons_self) (ih fun w hw => hg w (List.mem_cons_of_mem v hw))

/-- A list left as it is. -/
theorem Carved.refl (hl : ∀ v ∈ l, v.WellFormed) (hR : ∀ v, R v v) : Carved R K l l := by
  simpa using Carved.flatMap (g := fun v => [v]) (l := l) fun v hv => PiecesOf.self (hl v hv) (hR v)

theorem Carved.mono {R' : VmArea → VmArea → Prop} {K' : Nat → Prop} (h : Carved R K l l')
    (hR : ∀ v p, R v p → R' v p) (hK : ∀ a, K' a → K a) : Carved R' K' l l' := by
  induction h with
  | nil => exact .nil
  | cons hp _ ih =>
    exact .cons ⟨fun p hp' => ⟨(hp.piece p hp').1, hR _ _ (hp.piece p hp').2⟩, hp.sorted,
      fun a h₁ h₂ hk => hp.covers a h₁ h₂ (hK a hk)⟩ ih

/-- Every area of a cut list is a piece of an area of the list. -/
theorem Carved.exists_piece (h : Carved R K l l') : ∀ p ∈ l', ∃ v ∈ l, v.Piece p ∧ R v p := by
  induction h with
  | nil => simp
  | @cons v ps l l' hp _ ih =>
    intro p hp'
    rcases List.mem_append.mp hp' with hp' | hp'
    · exact ⟨v, List.mem_cons_self, hp.piece p hp'⟩
    · obtain ⟨w, hw, hwp⟩ := ih p hp'
      exact ⟨w, List.mem_cons_of_mem v hw, hwp⟩

/-- An address in K that an area of the list holds is held by an area of the
cut list. -/
theorem Carved.covers (h : Carved R K l l') {a : Nat} (ha : K a) :
    ∀ v ∈ l, v.start ≤ a → a < v.stop → ∃ p ∈ l', p.start ≤ a ∧ a < p.stop := by
  induction h with
  | nil => simp
  | @cons v ps l l' hp _ ih =>
    intro w hw h₁ h₂
    rcases List.mem_cons.mp hw with rfl | hw
    · obtain ⟨p, hp', hpa⟩ := hp.covers a h₁ h₂ ha
      exact ⟨p, List.mem_append_left _ hp', hpa⟩
    · obtain ⟨p, hp', hpa⟩ := ih w hw h₁ h₂
      exact ⟨p, List.mem_append_right _ hp', hpa⟩

/-- A cut list keeps the shape of mmap_list. -/
theorem MmapOk.carved (hl : MmapOk l) (h : Carved R K l l') : MmapOk l' := by
  induction h with
  | nil => exact hl
  | @cons v ps l l' hp hc ih =>
    obtain ⟨hv, hvl, hl⟩ := MmapOk.cons_iff.mp hl
    have hl' := ih hl
    refine ⟨fun p hp' => ?_, List.pairwise_append.mpr ⟨hp.sorted, hl'.sorted, fun a ha b hb => ?_⟩⟩
    · rcases List.mem_append.mp hp' with hp' | hp'
      · exact (hp.piece p hp').1.wf
      · exact hl'.wf p hp'
    · -- a piece of v ends by v's end, and b is a piece of an area after v
      obtain ⟨w, hw, hwb, -⟩ := hc.exists_piece b hb
      calc a.stop ≤ v.stop := (hp.piece a ha).1.stop_le
        _ ≤ w.start := hvl w hw
        _ ≤ b.start := hwb.start_le

end Carved

/-- An area cut at a and b, a <= b, both aligned and inside it: the part
before a and the part from b, which hold every address outside [a, b). -/
theorem piecesOf_cut {K : Nat → Prop} {vma : VmArea} {a b : Nat} (hv : vma.WellFormed) (hab : a ≤ b)
    (ha₁ : vma.start < a) (hb₂ : b < vma.stop) (ha : a % page4kSize = 0) (hb : b % page4kSize = 0)
    (hK : ∀ x, K x → x < a ∨ b ≤ x) :
    PiecesOf (fun v p => p.flags = v.flags) K vma [vma.leftOf a, vma.rightOf b] := by
  refine ⟨?_, List.pairwise_pair.mpr hab, fun x _ _ hx => ?_⟩
  · simpa using ⟨⟨vma.piece_leftOf hv ha₁ (by omega) ha, rfl⟩, ⟨vma.piece_rightOf hv (by omega) hb₂ hb, rfl⟩⟩
  · rcases hK x hx with hx | hx
    · exact ⟨vma.leftOf a, by simp, by simp only [VmArea.leftOf]; omega⟩
    · exact ⟨vma.rightOf b, by simp, by simp only [VmArea.rightOf]; omega⟩

theorem Carved.append_inv {R : VmArea → VmArea → Prop} {K : Nat → Prop} :
    ∀ {l m n : List VmArea}, Carved R K (l ++ m) n → ∃ n₁ n₂, n = n₁ ++ n₂ ∧ Carved R K l n₁ ∧ Carved R K m n₂
  | [], _, n, h => ⟨[], n, rfl, .nil, h⟩
  | v :: l, m, n, h => by
    rw [List.cons_append] at h
    cases h with
    | cons hp hc =>
      obtain ⟨n₁, n₂, rfl, h₁, h₂⟩ := Carved.append_inv hc
      exact ⟨_ ++ n₁, n₂, (List.append_assoc _ _ _).symm, .cons hp h₁, h₂⟩

/-- Cutting a cut list again cuts the list: each piece of a piece is a piece of
the area, related to it through the piece in between. -/
theorem Carved.trans {R₁ R₂ : VmArea → VmArea → Prop} {K₁ K₂ : Nat → Prop} {l l' l'' : List VmArea}
    (hl : ∀ v ∈ l, v.WellFormed) (h₁ : Carved R₁ K₁ l l') (h₂ : Carved R₂ K₂ l' l'') :
    Carved (fun v q => ∃ p, v.Piece p ∧ R₁ v p ∧ R₂ p q) (fun a => K₁ a ∧ K₂ a) l l'' := by
  induction h₁ generalizing l'' with
  | nil =>
    cases h₂
    exact .nil
  | @cons v ps l l' hp _ ih =>
    obtain ⟨qs, n, rfl, hq, hn⟩ := Carved.append_inv h₂
    have hv := hl v List.mem_cons_self
    refine .cons ⟨fun q hq' => ?_, ?_, fun a h₁ h₂ ha => ?_⟩ (ih (fun w hw => hl w (List.mem_cons_of_mem v hw)) hn)
    · obtain ⟨p, hp', hpq, hR₂⟩ := hq.exists_piece q hq'
      exact ⟨VmArea.Piece.trans hv (hp.piece p hp').1 hpq, p, (hp.piece p hp').1, (hp.piece p hp').2, hR₂⟩
    · -- the pieces of v are themselves a well-formed sorted list, and stay one when cut
      have hps : MmapOk ps := ⟨fun p hp' => (hp.piece p hp').1.wf, hp.sorted⟩
      exact (hps.carved hq).sorted
    · obtain ⟨p, hp', hpa⟩ := hp.covers a h₁ h₂ ha.1
      exact hq.covers ha.2 p hp' hpa.1 hpa.2

/-! ## vma_remove_range -/

/-- What vma_remove_range leaves of one area it reaches. -/
def removePieces (start stop : Nat) (vma : VmArea) : List VmArea :=
  if stop ≤ vma.start ∨ start ≥ vma.stop then [vma]
  else if start ≤ vma.start ∧ stop ≥ vma.stop then []
  else if start ≤ vma.start then [vma.rightOf stop]
  else if stop ≥ vma.stop then [vma.leftOf start]
  else [vma.leftOf start, vma.rightOf stop]

/-- The addresses vma_remove_range keeps: those outside [start, stop). -/
def OutsideRange (start stop a : Nat) : Prop := a < start ∨ stop ≤ a

/-- The pieces of an aligned cut keep the flags, and every address outside the
range. -/
theorem removePieces_piecesOf {start stop : Nat} {vma : VmArea} (hle : start ≤ stop)
    (hs : start % page4kSize = 0) (ht : stop % page4kSize = 0) (hv : vma.WellFormed) :
    PiecesOf (fun v p => p.flags = v.flags) (OutsideRange start stop) vma (removePieces start stop vma) := by
  have hlt := hv.lt
  unfold removePieces
  split_ifs with h₁ h₂ h₃ h₄
  · exact .self hv rfl
  · exact ⟨by simp, List.Pairwise.nil, fun a _ _ ha => by unfold OutsideRange at ha; omega⟩
  · refine ⟨by simpa using ⟨vma.piece_rightOf hv (by omega) (by omega) ht, rfl⟩, List.pairwise_singleton _ _,
      fun a _ h₂' ha => ⟨vma.rightOf stop, List.mem_singleton_self _, ?_⟩⟩
    unfold OutsideRange at ha
    simp only [VmArea.rightOf]
    omega
  · refine ⟨by simpa using ⟨vma.piece_leftOf hv (by omega) (by omega) hs, rfl⟩, List.pairwise_singleton _ _,
      fun a h₁' _ ha => ⟨vma.leftOf start, List.mem_singleton_self _, ?_⟩⟩
    unfold OutsideRange at ha
    simp only [VmArea.leftOf]
    omega
  · exact piecesOf_cut hv hle (by omega) (by omega) hs ht fun _ hx => hx

theorem splitRetainFile_error_ne {env : MmEnv} {right : VmArea} {e : Int} {evs : List VmaEvent}
    (h : splitRetainFile env right = .error (e, evs)) : e ≠ 0 := by
  unfold splitRetainFile at h
  split at h
  · cases h
  · split_ifs at h <;> cases h <;> decide

/-- One turn of vma_remove_range: the area is cut by removePieces and the loop
goes on, or the loop stops at it with an error, the list as it was from there. -/
theorem vmaRemoveRange_cons (env : MmEnv) (start stop : Nat) (vma : VmArea) (rest : List VmArea) :
    ((vmaRemoveRange env start stop (vma :: rest)).vmas =
        removePieces start stop vma ++ (vmaRemoveRange env start stop rest).vmas ∧
      (vmaRemoveRange env start stop (vma :: rest)).ret = (vmaRemoveRange env start stop rest).ret) ∨
    ((vmaRemoveRange env start stop (vma :: rest)).vmas = vma :: rest ∧
      (vmaRemoveRange env start stop (vma :: rest)).ret ≠ 0) := by
  simp only [vmaRemoveRange]
  split_ifs with h₁ h₂ h₃ h₄ h₅
  · exact .inl ⟨by rw [removePieces, if_pos h₁]; rfl, rfl⟩
  · exact .inl ⟨by rw [removePieces, if_neg h₁, if_pos h₂]; rfl, rfl⟩
  · exact .inl ⟨by rw [removePieces, if_neg h₁, if_neg h₂, if_pos h₃]; rfl, rfl⟩
  · exact .inl ⟨by rw [removePieces, if_neg h₁, if_neg h₂, if_neg h₃, if_pos h₄]; rfl, rfl⟩
  · exact .inr ⟨rfl, by rw [MmOutcome.fail_ret]; decide⟩
  · split
    · next e evs he => exact .inr ⟨rfl, splitRetainFile_error_ne he⟩
    · exact .inl ⟨by rw [removePieces, if_neg h₁, if_neg h₂, if_neg h₃, if_neg h₄]; rfl, rfl⟩

/-- vma_remove_range cuts the areas it reached and leaves the rest of the list
as it was; when it returns 0 it reached them all. -/
theorem vmaRemoveRange_spec (env : MmEnv) (start stop : Nat) :
    ∀ list : List VmArea, ∃ pre suf, list = pre ++ suf ∧
      (vmaRemoveRange env start stop list).vmas = pre.flatMap (removePieces start stop) ++ suf ∧
      ((vmaRemoveRange env start stop list).ret = 0 → suf = [])
  | [] => ⟨[], [], rfl, rfl, fun _ => rfl⟩
  | vma :: rest => by
    rcases vmaRemoveRange_cons env start stop vma rest with ⟨hv, hr⟩ | ⟨hv, hr⟩
    · obtain ⟨pre, suf, hrest, hv', hr'⟩ := vmaRemoveRange_spec env start stop rest
      refine ⟨vma :: pre, suf, by rw [hrest, List.cons_append], ?_, fun h => hr' (hr ▸ h)⟩
      rw [hv, hv', List.flatMap_cons, List.append_assoc]
    · exact ⟨[], vma :: rest, rfl, by simpa using hv, fun h => absurd h hr⟩

/-- On an aligned range that does not run backwards, vma_remove_range cuts
mmap_list: each area it leaves is a piece of one it found with the same flags,
and every address outside the range stays mapped. -/
theorem vmaRemoveRange_carved {env : MmEnv} {start stop : Nat} {list : List VmArea} (hl : MmapOk list)
    (hle : start ≤ stop) (hs : start % page4kSize = 0) (ht : stop % page4kSize = 0) :
    Carved (fun v p => p.flags = v.flags) (OutsideRange start stop) list (vmaRemoveRange env start stop list).vmas := by
  obtain ⟨pre, suf, rfl, hv, -⟩ := vmaRemoveRange_spec env start stop list
  rw [hv]
  refine (Carved.flatMap fun v hv' => removePieces_piecesOf hle hs ht (hl.wf v (List.mem_append_left _ hv'))).append
    (Carved.refl (fun v hv' => hl.wf v (List.mem_append_right _ hv')) fun _ => rfl)

theorem MmapOk.vmaRemoveRange {env : MmEnv} {start stop : Nat} {list : List VmArea} (hl : MmapOk list)
    (hle : start ≤ stop) (hs : start % page4kSize = 0) (ht : stop % page4kSize = 0) :
    MmapOk (vmaRemoveRange env start stop list).vmas :=
  hl.carved (vmaRemoveRange_carved hl hle hs ht)

/-! ## sys_munmap_full -/

/-- With addr + pages below 2^64, sys_munmap_full cuts mmap_list: every area it
leaves is a piece of one it found, with the same flags, and every address
outside the range stays mapped. -/
theorem sysMunmapFull_carved {env : MmEnv} {list : List VmArea} {addr length : Nat} (hl : MmapOk list)
    (hw : addr + alignUp length < 2 ^ 64) :
    Carved (fun v p => p.flags = v.flags) (OutsideRange addr (addr + alignUp length)) list
      (sysMunmapFull env list addr length).vmas := by
  have hrefl := Carved.refl hl.wf (R := fun v p => p.flags = v.flags) (K := OutsideRange addr (addr + alignUp length))
    fun _ => rfl
  unfold sysMunmapFull
  split_ifs with h₁ h₂ h₃
  · exact hrefl
  · exact hrefl
  · exact hrefl
  · have ha : addr % page4kSize = 0 := by
      rw [← and_pageMask]
      omega
    rw [Nat.mod_eq_of_lt hw]
    exact vmaRemoveRange_carved hl (Nat.le_add_right _ _) ha (by rw [Nat.add_mod, ha, alignUp_mod]; rfl)

theorem MmapOk.sysMunmapFull {env : MmEnv} {list : List VmArea} {addr length : Nat} (hl : MmapOk list)
    (hw : addr + alignUp length < 2 ^ 64) : MmapOk (sysMunmapFull env list addr length).vmas :=
  hl.carved (sysMunmapFull_carved hl hw)

/-- sys_munmap_full does not check that addr + ALIGN_UP(length) stays below
2^64.  munmap(0x403000, 2^64 - 0x2000) over the area mmap put at 0x400000
gives vma_remove_range an end of 0x401000, below its start: the area is split
the wrong way round, into [0x400000, 0x403000) and [0x401000, 0x404000), which
overlap, and the call returns 0. -/
theorem sys_munmap_full_wraps_to_overlap :
    (sysMmapPgoff MmEnv.succeeds .none [] 0x400000 0x4000 (protRead ||| protWrite)
        (mapPrivate ||| mapFixed ||| mapAnonymous) uint64Max 0).vmas = [vmAreaAlloc 0x400000 0x404000 0x13] ∧
      MmapOk [vmAreaAlloc 0x400000 0x404000 0x13] ∧
      (sysMunmapFull MmEnv.succeeds [vmAreaAlloc 0x400000 0x404000 0x13] 0x403000 (2 ^ 64 - 0x2000)).ret = 0 ∧
      ¬ MmapOk (sysMunmapFull MmEnv.succeeds [vmAreaAlloc 0x400000 0x404000 0x13] 0x403000 (2 ^ 64 - 0x2000)).vmas := by
  have hcut : (sysMunmapFull MmEnv.succeeds [vmAreaAlloc 0x400000 0x404000 0x13] 0x403000 (2 ^ 64 - 0x2000)).vmas =
      [vmAreaAlloc 0x400000 0x403000 0x13, { vmAreaAlloc 0x401000 0x404000 0x13 with vmPgoff := 1 }] := by
    decide
  refine ⟨by decide, MmapOk.cons_iff.mpr ⟨⟨by decide, by decide, by decide, by decide⟩, by simp, mmapOk_nil⟩,
    by decide, ?_⟩
  rw [hcut]
  intro h
  -- the first half ends at 0x403000, after the second starts at 0x401000
  have hle := (MmapOk.cons_iff.mp h).2.1 _ List.mem_cons_self
  revert hle
  decide

/-! ## sys_mprotect -/

/-- An area with other flags is a piece of it. -/
theorem VmArea.piece_withFlags {v : VmArea} (hv : v.WellFormed) (f : Nat) : v.Piece { v with flags := f } :=
  ⟨⟨hv.lt, hv.start_aligned, hv.stop_aligned, hv.le_top⟩, Nat.le_refl _, Nat.le_refl _, rfl, by simp [VmArea.filePage]⟩

/-- What vma_split_locked returns: vma itself when split is not inside it, or
the two halves. -/
theorem vmaSplitLocked_some {env : MmEnv} {vma : VmArea} {split : Nat} {evs : List VmaEvent} {s : Split}
    (h : vmaSplitLocked env vma split = (evs, some s)) :
    (s = ⟨[], vma⟩ ∧ (split ≤ vma.start ∨ split ≥ vma.stop)) ∨
      (vma.start < split ∧ split < vma.stop ∧ s = ⟨[vma.leftOf split], vma.rightOf split⟩) := by
  unfold vmaSplitLocked at h
  split at h
  · next h₁ =>
    cases h
    exact .inl ⟨rfl, h₁⟩
  · next h₁ =>
    have hin : vma.start < split ∧ split < vma.stop := by omega
    split at h
    · cases h
    -- past the calloc, the split either fails with none or links the two halves
    split at h
    · cases h
    split at h
    · split at h
      · cases h
      · cases h
        exact .inr ⟨hin.1, hin.2, rfl⟩
    · cases h
      exact .inr ⟨hin.1, hin.2, rfl⟩

/-- A split at an aligned address cuts the area into the halves it links. -/
theorem vmaSplitLocked_piecesOf {env : MmEnv} {vma : VmArea} {split : Nat} {evs : List VmaEvent} {s : Split}
    (hv : vma.WellFormed) (ha : split % page4kSize = 0) (h : vmaSplitLocked env vma split = (evs, some s)) :
    PiecesOf (fun v p => p.flags = v.flags) (fun _ => True) vma (s.left ++ [s.right]) := by
  rcases vmaSplitLocked_some h with ⟨rfl, -⟩ | ⟨h₁, h₂, rfl⟩
  · exact .self hv rfl
  · exact piecesOf_cut hv (Nat.le_refl _) h₁ h₂ ha ha fun x _ => by omega

/-- The loop that splits at end cuts the list it walks. -/
theorem splitAtEnd_carved {env : MmEnv} {stop : Nat} (ht : stop % page4kSize = 0) :
    ∀ {l suffix : List VmArea}, (∀ v ∈ l, v.WellFormed) → (splitAtEnd env stop l).2 = some suffix →
      Carved (fun v p => p.flags = v.flags) (fun _ => True) l suffix
  | [], suffix, _, h => by
    cases h
    exact .nil
  | v :: rest, suffix, hl, h => by
    have hv := hl v List.mem_cons_self
    have hrest : ∀ w ∈ rest, w.WellFormed := fun w hw => hl w (List.mem_cons_of_mem v hw)
    simp only [splitAtEnd] at h
    split_ifs at h with h₁ h₂
    · -- v runs past end: it is split there, and the loop ends at its right half
      split at h
      · cases h
      · next evs s hs =>
        cases h
        rw [List.append_cons]
        exact .cons (vmaSplitLocked_piecesOf hv ht hs) (Carved.refl hrest fun _ => rfl)
    · -- v ends by end: it stays, and the loop goes on
      obtain ⟨suffix', hs, rfl⟩ := Option.map_eq_some_iff.mp h
      show Carved _ _ (v :: rest) ([v] ++ suffix')
      exact .cons (.self hv rfl) (splitAtEnd_carved ht hrest hs)
    · cases h
      exact Carved.refl hl fun _ => rfl

/-- The flags loop gives the new flags only to areas that start in [lo, stop). -/
theorem protectFlags_carved {env : MmEnv} {requested stop lo : Nat} :
    ∀ {l l' : List VmArea}, (∀ v ∈ l, v.WellFormed ∧ lo ≤ v.start) → protectFlags env requested stop l = .ok l' →
      Carved (fun v p => p.flags = v.flags ∨ (lo ≤ p.start ∧ p.start < stop ∧ p.flags = mprotectFlags v.flags requested))
        (fun _ => True) l l'
  | [], l', _, h => by
    cases h
    exact .nil
  | v :: rest, l', hl, h => by
    have hv := hl v List.mem_cons_self
    rw [protectFlags.eq_2] at h
    split at h
    · next h₁ =>
      split at h
      · cases h
      -- v gets the new flags and the loop goes on
      cases hr : protectFlags env requested stop rest with
      | error e => simp [hr, Except.map] at h
      | ok rest' =>
        simp only [hr, Except.map, Except.ok.injEq] at h
        subst h
        show Carved _ _ (v :: rest) ([{ v with flags := mprotectFlags v.flags requested }] ++ rest')
        refine .cons ⟨fun p hp => ?_, List.pairwise_singleton _ _, fun a ha₁ ha₂ _ => ⟨_, List.mem_singleton_self _, ha₁, ha₂⟩⟩
          (protectFlags_carved (fun w hw => hl w (List.mem_cons_of_mem v hw)) hr)
        rw [List.mem_singleton.mp hp]
        exact ⟨v.piece_withFlags hv.1 _, .inr ⟨hv.2, h₁, rfl⟩⟩
    · cases h
      exact Carved.refl (fun w hw => (hl w hw).1) fun _ => .inl rfl

/-- What sys_mprotect leaves is mmap_list cut at the ends of its range, every
address still mapped, the flags of an area changed only on a piece that starts
in the range. -/
theorem sysMprotect_carved {env : MmEnv} {list : List VmArea} {addr length prot : Nat} (hl : MmapOk list) :
    Carved (fun v p => p.flags = v.flags ∨
        (addr ≤ p.start ∧ p.start < addr + alignUp length ∧ p.flags = mprotectFlags v.flags (protToVmFlags prot)))
      (fun _ => True) list (sysMprotect env list addr length prot).vmas := by
  have hrefl : Carved (fun v p => p.flags = v.flags ∨
      (addr ≤ p.start ∧ p.start < addr + alignUp length ∧ p.flags = mprotectFlags v.flags (protToVmFlags prot)))
      (fun _ => True) list list := Carved.refl hl.wf fun _ => .inl rfl
  unfold sysMprotect
  split
  · exact hrefl
  rename_i h₁
  split
  · exact hrefl
  split
  · exact hrefl
  split
  · exact hrefl
  have ha : addr % page4kSize = 0 := by
    rw [← and_pageMask]
    omega
  have hend : (addr + alignUp length) % page4kSize = 0 := by rw [Nat.add_mod, ha, alignUp_mod]; rfl
  split
  · exact hrefl
  · next first after hdrop =>
    -- list is the areas that end by addr, then first, then the rest
    have hsplit : list = list.takeWhile (·.stop ≤ addr) ++ first :: after := by
      rw [← hdrop, List.takeWhile_append_dropWhile]
    have hfirst : ¬ first.stop ≤ addr := by
      have := List.head_dropWhile_not (fun v : VmArea => decide (v.stop ≤ addr)) (l := list) (by simp [hdrop])
      simpa [hdrop] using this
    have hl' := hl
    rw [hsplit] at hl'
    have hwf := hl'.wf
    obtain ⟨hpre, hrest, -⟩ := List.pairwise_append.mp hl'.sorted
    obtain ⟨hfa, -⟩ := List.pairwise_cons.mp hrest
    split
    · exact hrefl
    split
    · exact hrefl
    split
    · exact hrefl
    split
    · exact hrefl
    · next evs s hs =>
      -- the split at addr cuts first into s.left and s.right, which starts at addr
      have hcut : PiecesOf (fun v p => p.flags = v.flags) (fun _ => True) first (s.left ++ [s.right]) ∧
          addr ≤ s.right.start := by
        split at hs
        · next hlt =>
          rcases vmaSplitLocked_some hs with ⟨rfl, hn⟩ | ⟨-, -, rfl⟩
          · omega
          · exact ⟨vmaSplitLocked_piecesOf (hwf first (by simp)) ha hs, Nat.le_refl _⟩
        · cases hs
          exact ⟨.self (hwf first (by simp)) rfl, show addr ≤ first.start by omega⟩
      have hafter : ∀ w ∈ after, w.WellFormed ∧ addr ≤ w.start := fun w hw =>
        ⟨hwf w (by simp [hw]), by have := hfa w hw; omega⟩
      have hT : ∀ w ∈ list.takeWhile (·.stop ≤ addr), w.WellFormed := fun w hw => hwf w (by simp [hw])
      have hC₁ : Carved (fun v p => p.flags = v.flags) (fun _ => True) list
          (list.takeWhile (·.stop ≤ addr) ++ s.left ++ s.right :: after) := by
        conv => lhs; rw [hsplit]
        rw [List.append_assoc, show s.left ++ s.right :: after = s.left ++ [s.right] ++ after from List.append_cons _ _ _]
        exact (Carved.refl hT (R := fun v p => p.flags = v.flags) fun _ => rfl).append
          (.cons hcut.1 (Carved.refl (fun w hw => (hafter w hw).1) fun _ => rfl))
      -- each later step cuts the suffix from s.right on and leaves the front as it is
      have hfront : ∀ w ∈ list.takeWhile (·.stop ≤ addr) ++ s.left, w.WellFormed := by
        intro w hw
        rcases List.mem_append.mp hw with hw | hw
        · exact hT w hw
        · exact (hcut.1.piece w (List.mem_append_left _ hw)).1.wf
      have hright : ∀ w ∈ s.right :: after, w.WellFormed ∧ addr ≤ w.start := by
        intro w hw
        rcases List.mem_cons.mp hw with rfl | hw
        · exact ⟨(hcut.1.piece s.right (by simp)).1.wf, hcut.2⟩
        · exact hafter w hw
      split
      · exact hC₁.mono (fun _ _ h => .inl h) fun _ _ => trivial
      · next evs' suffix hsuf =>
        have hs₂ := splitAtEnd_carved hend (fun w hw => (hright w hw).1) (congrArg Prod.snd hsuf)
        have hC₂ := (Carved.refl hfront (R := fun v p => p.flags = v.flags) (K := fun _ => True) fun _ => rfl).append hs₂
        have hC₁₂ : Carved (fun v p => p.flags = v.flags) (fun _ => True) list
            (list.takeWhile (·.stop ≤ addr) ++ s.left ++ suffix) :=
          (Carved.trans hl.wf hC₁ hC₂).mono (fun v q ⟨p, _, hp, hq⟩ => hq.trans hp) fun _ _ => ⟨trivial, trivial⟩
        split
        · exact hC₁₂.mono (fun _ _ h => .inl h) fun _ _ => trivial
        · next suffix' hflags =>
          -- the pieces of the suffix start at addr or later
          have hsuf' : ∀ w ∈ suffix, w.WellFormed ∧ addr ≤ w.start := by
            intro w hw
            obtain ⟨u, hu, hup, -⟩ := hs₂.exists_piece w hw
            exact ⟨hup.wf, Nat.le_trans (hright u hu).2 hup.start_le⟩
          have hC₃ := (Carved.refl hfront (K := fun _ => True) fun _ => .inl rfl).append
            (protectFlags_carved hsuf' hflags)
          refine (Carved.trans hl.wf hC₁₂ hC₃).mono (fun v q ⟨p, _, hp, hq⟩ => ?_) fun _ _ => ⟨trivial, trivial⟩
          rcases hq with hq | ⟨h₁, h₂, h₃⟩
          · exact .inl (hq.trans hp)
          · exact .inr ⟨h₁, h₂, by rw [h₃, hp]⟩

theorem MmapOk.sysMprotect {env : MmEnv} {list : List VmArea} {addr length prot : Nat} (hl : MmapOk list) :
    MmapOk (sysMprotect env list addr length prot).vmas :=
  hl.carved (sysMprotect_carved hl)

/-! ## process_unmap_complete_range and sys_mmap_pgoff -/

/-- Dropping areas keeps the shape of mmap_list. -/
theorem MmapOk.filter {list : List VmArea} (hl : MmapOk list) (p : VmArea → Bool) : MmapOk (list.filter p) :=
  ⟨fun v hv => hl.wf v (List.mem_of_mem_filter hv), hl.sorted.sublist List.filter_sublist⟩

theorem MmapOk.processUnmapCompleteRange {env : MmEnv} {list : List VmArea} {addr length : Nat} (hl : MmapOk list) :
    MmapOk (processUnmapCompleteRange env list addr length).vmas := by
  unfold Uinxed.Process.processUnmapCompleteRange
  split_ifs
  · exact hl
  · exact hl
  · exact hl
  · exact hl.filter _

/-- A file-backed mapping leaves mmap_list as it was or links one area into it. -/
theorem mmapFileAt_vmas (env : MmEnv) (file : MmapFile) (list : List VmArea) (mmapAddr pages vmFlags offset : Nat) :
    (mmapFileAt env file list mmapAddr pages vmFlags offset).vmas = list ∨
      ∃ v, vmAreaInsert list v = .ok (mmapFileAt env file list mmapAddr pages vmFlags offset).vmas := by
  unfold mmapFileAt
  -- every branch returns the list or what vm_area_insert accepted
  split
  all_goals (repeat' split) <;> first | exact .inl rfl | exact .inr ⟨_, by assumption⟩

theorem mmapAt_vmas (env : MmEnv) (file : MmapFile) (list : List VmArea) (mmapAddr pages prot flags fd offset : Nat) :
    (mmapAt env file list mmapAddr pages prot flags fd offset).vmas = list ∨
      ∃ v, vmAreaInsert list v = .ok (mmapAt env file list mmapAddr pages prot flags fd offset).vmas := by
  unfold mmapAt
  split
  · exact mmapFileAt_vmas _ _ _ _ _ _ _
  all_goals (repeat' split) <;> first | exact .inl rfl | exact .inr ⟨_, by assumption⟩

theorem MmapOk.mmapAt {env : MmEnv} {file : MmapFile} {list : List VmArea} {mmapAddr pages prot flags fd offset : Nat}
    (hl : MmapOk list) : MmapOk (mmapAt env file list mmapAddr pages prot flags fd offset).vmas := by
  rcases mmapAt_vmas env file list mmapAddr pages prot flags fd offset with h | ⟨v, h⟩
  · rw [h]
    exact hl
  · exact hl.vmAreaInsert h

theorem MmapOk.mmapAtFree {env : MmEnv} {file : MmapFile} {list : List VmArea} {pages prot flags fd offset : Nat}
    (hl : MmapOk list) : MmapOk (mmapAtFree env file list pages prot flags fd offset).vmas := by
  unfold Uinxed.Process.mmapAtFree
  split
  · exact hl
  · exact hl.mmapAt

/-- MAP_FIXED clears an aligned range, which its checks keep from wrapping,
and maps it through vm_area_insert. -/
theorem MmapOk.mmapFixed {env : MmEnv} {file : MmapFile} {list : List VmArea} {addr pages prot flags fd offset : Nat}
    (hl : MmapOk list) (hp : pages % page4kSize = 0) : MmapOk (mmapFixed env file list addr pages prot flags fd offset).vmas := by
  unfold Uinxed.Process.mmapFixed
  by_cases h₁ : addr = 0 ∨ addr &&& (page4kSize - 1) ≠ 0
  · rw [if_pos h₁]
    exact hl
  rw [if_neg h₁]
  have ha : addr % page4kSize = 0 := by
    rw [← and_pageMask]
    omega
  have hr : MmapOk (Uinxed.Process.vmaRemoveRange env addr (addr + pages) list).vmas :=
    hl.vmaRemoveRange (Nat.le_add_right _ _) ha (by rw [Nat.add_mod, ha, hp]; rfl)
  split_ifs
  · exact hl
  · exact hl
  · exact hl
  · exact hr
  · exact hr.mmapAt

/-- sys_mmap_pgoff keeps the shape of mmap_list. -/
theorem MmapOk.sysMmapPgoff {env : MmEnv} {file : MmapFile} {list : List VmArea} {addr length prot flags fd offset : Nat}
    (hl : MmapOk list) : MmapOk (sysMmapPgoff env file list addr length prot flags fd offset).vmas := by
  unfold Uinxed.Process.sysMmapPgoff
  split_ifs
  · exact hl
  · exact hl.mmapAt
  · exact hl.mmapAtFree
  · exact hl.mmapFixed (alignUp_mod length)
  · exact hl.mmapAtFree

/-! ## Runs of calls -/

/-- A call on mmap_list with its arguments: the system calls, and the
vm_area_insert by which shmat and the ELF loader link their areas. -/
inductive MmCall where
  | mmap (file : MmapFile) (addr length prot flags fd offset : Nat)
  | munmap (addr length : Nat)
  | mprotect (addr length prot : Nat)
  | unmapComplete (addr length : Nat)
  | insert (vma : VmArea)

/-- The list a call leaves. -/
def MmCall.run (env : MmEnv) (list : List VmArea) : MmCall → List VmArea
  | .mmap file addr length prot flags fd offset => (sysMmapPgoff env file list addr length prot flags fd offset).vmas
  | .munmap addr length => (sysMunmapFull env list addr length).vmas
  | .mprotect addr length prot => (sysMprotect env list addr length prot).vmas
  | .unmapComplete addr length => (processUnmapCompleteRange env list addr length).vmas
  | .insert vma =>
    match vmAreaInsert list vma with
    | .ok list' => list'
    | .error _ => list

/-- The call's end does not wrap past 2^64; only munmap leaves it unchecked. -/
def MmCall.NoWrap : MmCall → Prop
  | .munmap addr length => addr + alignUp length < 2 ^ 64
  | _ => True

/-- A run of calls, each with the failures its env gives. -/
def runCalls (list : List VmArea) (calls : List (MmEnv × MmCall)) : List VmArea :=
  calls.foldl (fun l c => c.2.run c.1 l) list

theorem MmapOk.run {env : MmEnv} {list : List VmArea} {c : MmCall} (hl : MmapOk list) (hw : c.NoWrap) :
    MmapOk (c.run env list) := by
  cases c with
  | mmap => exact hl.sysMmapPgoff
  | munmap => exact hl.sysMunmapFull hw
  | mprotect => exact hl.sysMprotect
  | unmapComplete => exact hl.processUnmapCompleteRange
  | insert vma =>
    simp only [MmCall.run]
    split
    · next h => exact hl.vmAreaInsert h
    · exact hl

/-- mmap_list keeps its shape along every run of mmap, munmap, mprotect,
process_unmap_complete_range and vm_area_insert in which no munmap range
wraps past 2^64. -/
theorem mmap_list_shape_of_run (list : List VmArea) (calls : List (MmEnv × MmCall)) (hl : MmapOk list)
    (hw : ∀ c ∈ calls, c.2.NoWrap) : MmapOk (runCalls list calls) := by
  induction calls generalizing list with
  | nil => exact hl
  | cons c calls ih =>
    exact ih _ (hl.run (hw c List.mem_cons_self)) fun c' hc' => hw c' (List.mem_cons_of_mem c hc')

theorem mmap_list_shape_of_run_mmap_munmap :
    MmapOk [] ∧ (∀ c ∈ [(MmEnv.succeeds, MmCall.mmap .none 0x400000 0x4000 3 0x32 uint64Max 0),
        (MmEnv.succeeds, MmCall.munmap 0x401000 0x1000)], c.2.NoWrap) ∧
      MmapOk (runCalls [] [(MmEnv.succeeds, MmCall.mmap .none 0x400000 0x4000 3 0x32 uint64Max 0),
        (MmEnv.succeeds, MmCall.munmap 0x401000 0x1000)]) := by
  have hw : ∀ c ∈ [(MmEnv.succeeds, MmCall.mmap .none 0x400000 0x4000 3 0x32 uint64Max 0),
      (MmEnv.succeeds, MmCall.munmap 0x401000 0x1000)], c.2.NoWrap := by
    intro c hc
    simp only [List.mem_cons, List.not_mem_nil, or_false] at hc
    rcases hc with rfl | rfl
    · trivial
    · show 0x401000 + alignUp 0x1000 < 2 ^ 64
      decide
  exact ⟨mmapOk_nil, hw, mmap_list_shape_of_run [] _ mmapOk_nil hw⟩

/-- What munmap and mprotect leave are pieces of the areas they found: each
maps every address to the page of the file its area mapped it to, with its
backing, and keeps its flags unless mprotect changed them on a piece that
starts in its range; munmap keeps every address outside its range mapped. -/
theorem mmap_calls_cut_areas (list : List VmArea) (hl : MmapOk list) :
    (∀ env addr length, addr + alignUp length < 2 ^ 64 →
      Carved (fun v p => p.flags = v.flags) (OutsideRange addr (addr + alignUp length)) list
        (sysMunmapFull env list addr length).vmas) ∧
    (∀ env addr length prot,
      Carved (fun v p => p.flags = v.flags ∨
          (addr ≤ p.start ∧ p.start < addr + alignUp length ∧ p.flags = mprotectFlags v.flags (protToVmFlags prot)))
        (fun _ => True) list (sysMprotect env list addr length prot).vmas) :=
  ⟨fun _ _ _ hw => sysMunmapFull_carved hl hw, fun _ _ _ _ => sysMprotect_carved hl⟩

theorem mmap_calls_cut_areas_one_area :
    MmapOk [vmAreaAlloc 0x400000 0x404000 0x13] ∧
      Carved (fun v p => p.flags = v.flags) (OutsideRange 0x401000 (0x401000 + alignUp 0x1000))
        [vmAreaAlloc 0x400000 0x404000 0x13] (sysMunmapFull MmEnv.succeeds [vmAreaAlloc 0x400000 0x404000 0x13] 0x401000 0x1000).vmas := by
  have hl : MmapOk [vmAreaAlloc 0x400000 0x404000 0x13] :=
    MmapOk.cons_iff.mpr ⟨⟨by decide, by decide, by decide, by decide⟩, by simp, mmapOk_nil⟩
  exact ⟨hl, (mmap_calls_cut_areas _ hl).1 _ _ _ (by decide)⟩

end Uinxed.Process
