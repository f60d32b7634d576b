/-
  Ipc/PipeRing.lean --- pipe_ring_t of pipe.c and the operations on its
  bytes.

  The ring keeps size bytes of buf from tail on, wrapping at capacity; head
  is where the next byte goes.  pipe_ring_advance moves an index with the
  mask index_mask when pipe_ring_alloc found the capacity to be a power of
  two, and by one subtraction otherwise.  copy_out and copy_in move a range
  with one memcpy, or two when it wraps.  The counters of the wait paths
  (readers, writers, the waiter counts and the writers' wake threshold) and
  the closed flag are fields of the ring; the lock, the wait queues and the
  CPU hints are not.

  Valid is what the ring-locked sections keep: size at most capacity, tail
  below it and head = (tail + size) mod capacity, for a capacity of at most
  2^31 bytes.  Below that bound neither advance mode overflows 32 bits;
  pipe_ring_alloc's PIPE_BUF_SIZE of 65536 is well inside it.  The contents
  of a ring are the size bytes from tail on: a consume drops its first bytes
  and a copy in followed by a produce appends the bytes copied.
-/
import Mathlib.Algebra.GroupWithZero.Nat
import Uinxed.Lib.RingWindow

set_option autoImplicit false

namespace Uinxed.Pipe

open RingWindow

/-- PIPE_BUF_SIZE. -/
def pipeBufSize : UInt32 := 65536

/-- PIPE_ATOMIC_SIZE. -/
def pipeAtomicSize : Nat := 4096

/-- pipe_ring_t without its lock, wait queues and CPU hints. -/
structure PipeRing where
  buf : Nat → UInt8
  head : UInt32
  tail : UInt32
  size : UInt32
  capacity : UInt32
  indexMask : UInt32
  readers : UInt32
  writers : UInt32
  readWaiters : UInt32
  writeWaiters : UInt32
  writeWakeThreshold : UInt32
  closed : Bool

/-- pipe_ring_alloc, buf being the bytes malloc returned. -/
def pipeRingAlloc (buf : Nat → UInt8) : PipeRing where
  buf := buf
  head := 0
  tail := 0
  size := 0
  capacity := pipeBufSize
  indexMask := if pipeBufSize ≠ 0 ∧ pipeBufSize &&& (pipeBufSize - 1) = 0 then pipeBufSize - 1 else 0
  readers := 0
  writers := 0
  readWaiters := 0
  writeWaiters := 0
  writeWakeThreshold := 0
  closed := false

/-- pipe_ring_readable. -/
def pipeRingReadable (ring : PipeRing) : UInt32 := ring.size

/-- pipe_ring_writable. -/
def pipeRingWritable (ring : PipeRing) : UInt32 := ring.capacity - ring.size

/-- pipe_ring_advance. -/
def pipeRingAdvance (ring : PipeRing) (index count : UInt32) : UInt32 :=
  if ring.indexMask ≠ 0 then (index + count) &&& ring.indexMask
  else
    let next := index + count
    if next ≥ ring.capacity then next - ring.capacity else next

/-- pipe_ring_consume. -/
def pipeRingConsume (ring : PipeRing) (count : UInt32) : PipeRing :=
  { ring with tail := pipeRingAdvance ring ring.tail count, size := ring.size - count }

/-- pipe_ring_produce. -/
def pipeRingProduce (ring : PipeRing) (count : UInt32) : PipeRing :=
  { ring with head := pipeRingAdvance ring ring.head count, size := ring.size + count }

/-- pipe_ring_copy_out: the count bytes it copies out. -/
def pipeRingCopyOut (ring : PipeRing) (count : UInt32) : List UInt8 :=
  let firstChunk := min (ring.capacity - ring.tail) count
  readLinear ring.buf ring.tail.toNat firstChunk.toNat ++
    if count > firstChunk then readLinear ring.buf 0 (count - firstChunk).toNat else []

/-- pipe_ring_copy_in of the bytes src, count being their number. -/
def pipeRingCopyIn (ring : PipeRing) (src : List UInt8) : PipeRing :=
  let count := src.length.toUInt32
  let firstChunk := min (ring.capacity - ring.head) count
  let buf := writeLinear ring.buf ring.head.toNat (src.take firstChunk.toNat)
  { ring with buf := if count > firstChunk then writeLinear buf 0 (src.drop firstChunk.toNat) else buf }

/-! ## The invariant and the contents -/

/-- What the ring-locked sections keep of a ring. -/
structure PipeRing.Valid (ring : PipeRing) : Prop where
  capacity_pos : 0 < ring.capacity.toNat
  capacity_le : ring.capacity.toNat ≤ 2 ^ 31
  mask : ring.indexMask ≠ 0 → ∃ k, ring.capacity.toNat = 2 ^ k ∧ ring.indexMask = ring.capacity - 1
  tail_lt : ring.tail.toNat < ring.capacity.toNat
  size_le : ring.size.toNat ≤ ring.capacity.toNat
  head_eq : ring.head.toNat = (ring.tail.toNat + ring.size.toNat) % ring.capacity.toNat

/-- The unread bytes, in the order a reader gets them. -/
def PipeRing.contents (ring : PipeRing) : List UInt8 :=
  window ring.buf ring.capacity.toNat ring.tail.toNat ring.size.toNat

/-- Two rings with the same bytes and indices; they differ at most in the
counters and the closed flag. -/
structure PipeRing.SameData (ring ring' : PipeRing) : Prop where
  buf : ring'.buf = ring.buf
  head : ring'.head = ring.head
  tail : ring'.tail = ring.tail
  size : ring'.size = ring.size
  capacity : ring'.capacity = ring.capacity
  indexMask : ring'.indexMask = ring.indexMask

theorem PipeRing.SameData.refl (ring : PipeRing) : ring.SameData ring := ⟨rfl, rfl, rfl, rfl, rfl, rfl⟩

theorem PipeRing.SameData.trans {r₁ r₂ r₃ : PipeRing} (h₁ : r₁.SameData r₂) (h₂ : r₂.SameData r₃) :
    r₁.SameData r₃ :=
  ⟨h₂.buf.trans h₁.buf, h₂.head.trans h₁.head, h₂.tail.trans h₁.tail, h₂.size.trans h₁.size,
    h₂.capacity.trans h₁.capacity, h₂.indexMask.trans h₁.indexMask⟩

theorem PipeRing.Valid.of_sameData {ring ring' : PipeRing} (hv : ring.Valid) (h : ring.SameData ring') : ring'.Valid := by
  obtain ⟨hbuf, hhead, htail, hsize, hcap, hmask⟩ := h
  exact ⟨hcap ▸ hv.capacity_pos, hcap ▸ hv.capacity_le, hcap ▸ hmask ▸ hv.mask, hcap ▸ htail ▸ hv.tail_lt,
    hcap ▸ hsize ▸ hv.size_le, hcap ▸ hsize ▸ htail ▸ hhead ▸ hv.head_eq⟩

theorem PipeRing.contents_of_sameData {ring ring' : PipeRing} (h : ring.SameData ring') :
    ring'.contents = ring.contents := by
  simp only [PipeRing.contents, h.buf, h.capacity, h.tail, h.size]

theorem pipeRingAlloc_valid (buf : Nat → UInt8) : (pipeRingAlloc buf).Valid where
  capacity_pos := show 0 < pipeBufSize.toNat by decide
  capacity_le := show pipeBufSize.toNat ≤ 2 ^ 31 by decide
  mask := fun _ => ⟨16, show pipeBufSize.toNat = 2 ^ 16 by decide,
    show (if pipeBufSize ≠ 0 ∧ pipeBufSize &&& (pipeBufSize - 1) = 0 then pipeBufSize - 1 else 0) = pipeBufSize - 1
      by decide⟩
  tail_lt := show (0 : UInt32).toNat < pipeBufSize.toNat by decide
  size_le := show (0 : UInt32).toNat ≤ pipeBufSize.toNat by decide
  head_eq := show (0 : UInt32).toNat = ((0 : UInt32).toNat + (0 : UInt32).toNat) % pipeBufSize.toNat by decide

@[simp] theorem pipeRingAlloc_contents (buf : Nat → UInt8) : (pipeRingAlloc buf).contents = [] := rfl

/-! ## Advancing an index -/

section Advance

variable {ring : PipeRing} (hv : ring.Valid)
include hv

/-- Both modes of pipe_ring_advance add modulo the capacity. -/
theorem pipeRingAdvance_toNat {index count : UInt32} (hi : index.toNat < ring.capacity.toNat)
    (hc : count.toNat ≤ ring.capacity.toNat) :
    (pipeRingAdvance ring index count).toNat = (index.toNat + count.toNat) % ring.capacity.toNat := by
  have hcap := hv.capacity_le
  have hsum : (index + count).toNat = index.toNat + count.toNat := by
    rw [UInt32.toNat_add, Nat.mod_eq_of_lt (by omega)]
  unfold pipeRingAdvance
  split
  · -- the mask of a power-of-two capacity
    rename_i hmask
    obtain ⟨k, hk, hmaskEq⟩ := hv.mask hmask
    have hmaskNat : ring.indexMask.toNat = 2 ^ k - 1 := by
      rw [hmaskEq, UInt32.toNat_sub_of_le _ _ (UInt32.le_iff_toNat_le.mpr (by simp; omega)), hk]
      rfl
    rw [UInt32.toNat_and, hsum, hmaskNat, Nat.and_two_pow_sub_one_eq_mod, hk]
  · -- one subtraction past the end
    dsimp only
    split
    · rename_i hwrap
      rw [ge_iff_le, UInt32.le_iff_toNat_le, hsum] at hwrap
      rw [UInt32.toNat_sub_of_le _ _ (UInt32.le_iff_toNat_le.mpr (by rw [hsum]; exact hwrap)), hsum,
        Nat.mod_eq_sub_mod hwrap, Nat.mod_eq_of_lt (by omega)]
    · rename_i hfit
      rw [ge_iff_le, UInt32.le_iff_toNat_le, hsum] at hfit
      rw [hsum, Nat.mod_eq_of_lt (by omega)]

/-! ## Consuming and producing -/

/-- A consume of at most the unread bytes keeps the invariant. -/
theorem PipeRing.Valid.consume {count : UInt32} (hc : count.toNat ≤ ring.size.toNat) :
    (pipeRingConsume ring count).Valid := by
  have hsize : (ring.size - count).toNat = ring.size.toNat - count.toNat :=
    UInt32.toNat_sub_of_le _ _ (UInt32.le_iff_toNat_le.mpr hc)
  have htail := pipeRingAdvance_toNat hv hv.tail_lt (Nat.le_trans hc hv.size_le)
  refine ⟨hv.capacity_pos, hv.capacity_le, hv.mask, ?_, ?_, ?_⟩
  · simp only [pipeRingConsume, htail]
    exact Nat.mod_lt _ hv.capacity_pos
  · simp only [pipeRingConsume, hsize]
    exact Nat.le_trans (Nat.sub_le _ _) hv.size_le
  · simp only [pipeRingConsume, htail, hsize, Nat.mod_add_mod, hv.head_eq]
    congr 1
    omega

/-- A consume drops the first bytes of the contents. -/
theorem PipeRing.contents_consume {count : UInt32} (hc : count.toNat ≤ ring.size.toNat) :
    (pipeRingConsume ring count).contents = ring.contents.drop count.toNat := by
  have hsize : (ring.size - count).toNat = ring.size.toNat - count.toNat :=
    UInt32.toNat_sub_of_le _ _ (UInt32.le_iff_toNat_le.mpr hc)
  have htail := pipeRingAdvance_toNat hv hv.tail_lt (Nat.le_trans hc hv.size_le)
  simp only [PipeRing.contents, pipeRingConsume, htail, hsize]
  rw [window_drop _ _ _ hc]

/-- A produce of at most the free bytes keeps the invariant. -/
theorem PipeRing.Valid.produce {count : UInt32} (hc : ring.size.toNat + count.toNat ≤ ring.capacity.toNat) :
    (pipeRingProduce ring count).Valid := by
  have hcap := hv.capacity_le
  have hsize : (ring.size + count).toNat = ring.size.toNat + count.toNat := by
    rw [UInt32.toNat_add, Nat.mod_eq_of_lt (by omega)]
  have hhead : (pipeRingAdvance ring ring.head count).toNat = (ring.head.toNat + count.toNat) % ring.capacity.toNat :=
    pipeRingAdvance_toNat hv (by rw [hv.head_eq]; exact Nat.mod_lt _ hv.capacity_pos) (by omega)
  refine ⟨hv.capacity_pos, hv.capacity_le, hv.mask, hv.tail_lt, ?_, ?_⟩
  · simp only [pipeRingProduce, hsize]
    exact hc
  · simp only [pipeRingProduce, hhead, hsize]
    rw [hv.head_eq, Nat.mod_add_mod, Nat.add_assoc]

/-! ## Copying out and in -/

theorem PipeRing.Valid.head_lt : ring.head.toNat < ring.capacity.toNat := by
  rw [hv.head_eq]
  exact Nat.mod_lt _ hv.capacity_pos

/-- pipe_ring_copy_out of at most the unread bytes reads the first bytes of
the contents. -/
theorem pipeRingCopyOut_eq_take {count : UInt32} (hc : count.toNat ≤ ring.size.toNat) :
    pipeRingCopyOut ring count = ring.contents.take count.toNat := by
  have htail := hv.tail_lt
  have hfirst : (min (ring.capacity - ring.tail) count).toNat = firstChunk ring.capacity.toNat ring.tail.toNat count.toNat := by
    rw [UInt32.toNat_min, UInt32.toNat_sub_of_le _ _ (UInt32.le_iff_toNat_le.mpr (Nat.le_of_lt htail))]
    rfl
  have hgt : count > min (ring.capacity - ring.tail) count ↔
      count.toNat > firstChunk ring.capacity.toNat ring.tail.toNat count.toNat := by
    rw [gt_iff_lt, UInt32.lt_iff_toNat_lt, hfirst]
  have hsub : (count - min (ring.capacity - ring.tail) count).toNat =
      count.toNat - firstChunk ring.capacity.toNat ring.tail.toNat count.toNat := by
    rw [UInt32.toNat_sub_of_le _ _ (UInt32.le_iff_toNat_le.mpr (by rw [hfirst]; exact Nat.min_le_right _ _)), hfirst]
  have hout : pipeRingCopyOut ring count = copyOut ring.buf ring.capacity.toNat ring.tail.toNat count.toNat := by
    simp only [pipeRingCopyOut, copyOut, hfirst, hgt, hsub]
  rw [hout, copyOut_eq_window htail _ (Nat.le_trans hc hv.size_le), PipeRing.contents, window_take _ _ _ hc]

/-- pipe_ring_copy_in of at most capacity bytes is the two-copy move of the
library. -/
theorem pipeRingCopyIn_eq {src : List UInt8} (hlen : src.length ≤ ring.capacity.toNat) :
    pipeRingCopyIn ring src = { ring with buf := copyIn ring.buf ring.capacity.toNat ring.head.toNat src } := by
  have hhead := hv.head_lt
  have hcount : src.length.toUInt32.toNat = src.length :=
    UInt32.toNat_ofNat_of_lt' (by unfold UInt32.size; have := hv.capacity_le; omega)
  have hfirst : (min (ring.capacity - ring.head) src.length.toUInt32).toNat =
      firstChunk ring.capacity.toNat ring.head.toNat src.length := by
    rw [UInt32.toNat_min, UInt32.toNat_sub_of_le _ _ (UInt32.le_iff_toNat_le.mpr (Nat.le_of_lt hhead)), hcount]
    rfl
  have hgt : src.length.toUInt32 > min (ring.capacity - ring.head) src.length.toUInt32 ↔
      src.length > firstChunk ring.capacity.toNat ring.head.toNat src.length := by
    rw [gt_iff_lt, UInt32.lt_iff_toNat_lt, hfirst, hcount]
  simp only [pipeRingCopyIn, copyIn, hfirst, hgt]

/-- A copy in of at most the free bytes leaves the contents as they were. -/
theorem PipeRing.contents_copyIn {src : List UInt8} (hroom : ring.size.toNat + src.length ≤ ring.capacity.toNat) :
    (pipeRingCopyIn ring src).contents = ring.contents := by
  rw [pipeRingCopyIn_eq hv (by omega)]
  simp only [PipeRing.contents, hv.head_eq]
  exact window_copyIn_end hv.capacity_pos _ _ _ hroom

theorem PipeRing.Valid.copyIn (src : List UInt8) : (pipeRingCopyIn ring src).Valid :=
  ⟨hv.capacity_pos, hv.capacity_le, hv.mask, hv.tail_lt, hv.size_le, hv.head_eq⟩

/-- A copy in of at most the free bytes followed by a produce of as many
appends them to the contents. -/
theorem PipeRing.contents_produce_copyIn {src : List UInt8}
    (hroom : ring.size.toNat + src.length ≤ ring.capacity.toNat) :
    (pipeRingProduce (pipeRingCopyIn ring src) src.length.toUInt32).contents = ring.contents ++ src := by
  have hcap := hv.capacity_le
  have hcount : src.length.toUInt32.toNat = src.length :=
    UInt32.toNat_ofNat_of_lt' (by unfold UInt32.size; omega)
  have hsize : (ring.size + src.length.toUInt32).toNat = ring.size.toNat + src.length := by
    rw [UInt32.toNat_add, hcount, Nat.mod_eq_of_lt (by omega)]
  rw [pipeRingCopyIn_eq hv (by omega)]
  simp only [PipeRing.contents, pipeRingProduce, hsize, hv.head_eq]
  exact window_copyIn_append hv.capacity_pos _ _ _ hroom

end Advance

end Uinxed.Pipe
