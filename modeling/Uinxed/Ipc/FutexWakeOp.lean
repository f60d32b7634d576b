/-
  Ipc/FutexWakeOp.lean --- whom futex_wake_op and futex_requeue wake, and
  how futex_wake_op reads val3.

  futex_create_waiter keeps one entry for each word and bitset, and futex_wake
  walks every entry of the word whose bitset meets its own: it wakes nr_wake
  of all their waiters, or all of them when fewer wait (futexWake_woken).
  futex_wake_op and futex_requeue stop at the first entry of the word the
  bucket walk meets and wake only its queue.  Two waiters of one word with different bitsets sit in
  two entries, and the two paths then wake different numbers of tasks.

  futex_wake_op takes op from bits 12-15 of val3 and oparg from bits 28-31,
  where the Linux encoding FUTEX_OP(op, oparg, cmp, cmparg) puts oparg and
  op; it reads cmparg unsigned and has no FUTEX_OP_OPARG_SHIFT.
  futexAtomicOpLinux is the Linux reading (futex_atomic_op_inuser), with the
  same operations and comparisons once the fields are decoded.
-/
import Uinxed.Ipc.FutexFree
import Uinxed.Ipc.FutexWake

set_option autoImplicit false

namespace Uinxed.Futex

open Uinxed.Sched FutexSystem

variable {s : FutexSystem}

/-! ## How many tasks each path wakes -/

/-- The entries futex_wake takes waiters from: those of the word whose bitset
meets the wake bitset. -/
def futexWakes (entry : Nat → FutexEntry) (uaddr : Nat) (bitset : UInt64) (e : Nat) : Bool :=
  decide ((entry e).key = uaddr ∧ (entry e).bitset &&& bitset ≠ 0)

/-- The number of tasks linked in the queues of the entries futex_wake takes
waiters from. -/
def futexWaiting (s : FutexSystem) (uaddr : Nat) (bitset : UInt64) : Nat :=
  ((s.entries.filter (futexWakes s.entry uaddr bitset)).map fun e => (s.wait.queues (.entry e)).length).sum

/-- The loop of futex_wake wakes n tasks in all, or every waiter of the
entries it takes waiters from when fewer wait.  The induction is on the
entries left; a queue woken here is not one of a later entry. -/
theorem futexWakeEntries_snd (entry : Nat → FutexEntry) (uaddr : Nat) (bitset : UInt64) (n : Nat) :
    ∀ (es : List Nat) (w : WaitState FutexQueue) (woken : Nat), w.Linked → es.Nodup → woken ≤ n →
      (futexWakeEntries entry uaddr bitset n es w woken).2 =
        woken + min (n - woken) ((es.filter (futexWakes entry uaddr bitset)).map
          fun e => (w.queues (.entry e)).length).sum
  | [], _, _, _, _, _ => by simp [futexWakeEntries]
  | e :: rest, w, woken, hw, hnd, hle => by
    obtain ⟨he, hnd'⟩ := List.nodup_cons.mp hnd
    by_cases hskip : (entry e).key ≠ uaddr ∨ (entry e).bitset &&& bitset = 0
    · have hf : futexWakes entry uaddr bitset e = false := by
        simp only [futexWakes, decide_eq_false_iff_not, not_and, not_not]
        rcases hskip with h | h
        · exact fun h' => absurd h' h
        · exact fun _ => h
      simp only [futexWakeEntries, if_pos hskip, List.filter_cons, hf]
      exact futexWakeEntries_snd entry uaddr bitset n rest w woken hw hnd' hle
    · have hf : futexWakes entry uaddr bitset e = true := by
        simpa [futexWakes, not_or] using hskip
      let r := WaitState.wakeUpTo (n - woken) w (.entry e)
      have hr : r.2 = min (n - woken) (w.queues (.entry e)).length := WaitState.wakeUpTo_snd hw _ _
      -- the later entries' queues are those of w
      have hrest : ((rest.filter (futexWakes entry uaddr bitset)).map fun e' => (r.1.queues (.entry e')).length) =
          (rest.filter (futexWakes entry uaddr bitset)).map fun e' => (w.queues (.entry e')).length := by
        refine List.map_congr_left fun e' he' => ?_
        have hne : e' ≠ e := fun h => he (h ▸ (List.mem_filter.mp he').1)
        rw [WaitState.wakeUpTo_queues_of_ne hw _ (by simpa using hne)]
      have ih := futexWakeEntries_snd entry uaddr bitset n rest r.1 (woken + r.2) (hw.wakeUpTo _ _) hnd'
        (by omega)
      simp only [futexWakeEntries, if_neg hskip, List.filter_cons, hf, if_true, List.map_cons, List.sum_cons]
      rw [ih, hrest, hr]
      omega

/-- futex_wake with a non-empty bitset, asked for nr_wake > 0 tasks and
reaching no futex_waitv registration, wakes nr_wake of the waiters of the
entries of the word whose bitset meets its own, or all of them. -/
theorem futexWake_woken (h : TableInv s) (uaddr : Nat) {nrWake : Int} (hn : 0 < nrWake) {bitset : UInt64}
    (hb : bitset ≠ 0) : (futexWake s uaddr nrWake bitset 0).2 = (min nrWake.toNat (futexWaiting s uaddr bitset) : Nat) := by
  have hsnd := futexWakeEntries_snd s.entry uaddr bitset nrWake.toNat s.entries s.wait 0 h.linked h.nodup
    (Nat.zero_le _)
  simp only [futexWake, if_neg hb, if_neg (Int.not_le.mpr hn), Nat.zero_min, Nat.add_zero, hsnd, Nat.zero_add,
    Nat.sub_zero, futexWaiting]

/-- Tasks 1 and 2 wait on the word at 0x1000 with FUTEX_WAIT_BITSET, the
first with bitset 1 and the second with bitset 2, and both block. -/
def bitsetWaitersRun : List (Nat × FutexAction) :=
  [(1, .wait 0x1000 0 1 false false), (1, .waitBlock false false), (2, .wait 0x1000 0 2 false false),
    (2, .waitBlock false false)]

/-- After the run above two tasks wait on the word, and futex_wake of two
tasks with FUTEX_BITSET_MATCH_ANY wakes both, while futex_wake_op and
FUTEX_REQUEUE of two tasks wake one: the entry of bitset 2, made last, is
the first of the word, and the entry of bitset 1 is not looked at. -/
theorem futex_wake_op_wakes_first_bitset_entry :
    ∃ s, futexRun 0 (FutexSystem.init lockedPiMem (fun t => some t) (fun p => some p)) bitsetWaitersRun = some s ∧
      futexWaiting s 0x1000 futexBitsetMatchAny = 2 ∧ (futexWake s 0x1000 2 futexBitsetMatchAny 0).2 = 2 ∧
      (futexWakeOp s 0x1000 2 0 0x2000 0).2 = 1 ∧ (futexRequeue s 0x1000 2 0 0x2000 0 false false).2 = 1 := by
  refine ⟨_, rfl, ?_⟩
  decide

/-- After the run above, futex_wake of three tasks with FUTEX_BITSET_MATCH_ANY
wakes the waiters of both entries. -/
theorem futexWake_woken_two_bitsets :
    ∃ s, futexRun 0 (FutexSystem.init lockedPiMem (fun t => some t) (fun p => some p)) bitsetWaitersRun = some s ∧
      TableInv s ∧ (futexWake s 0x1000 3 futexBitsetMatchAny 0).2 =
        (min (3 : Int).toNat (futexWaiting s 0x1000 futexBitsetMatchAny) : Nat) := by
  obtain ⟨s, hs⟩ : ∃ s, futexRun 0 (FutexSystem.init lockedPiMem (fun t => some t) (fun p => some p))
      bitsetWaitersRun = some s := ⟨_, rfl⟩
  have hww : ∀ x ∈ bitsetWaitersRun, x.2.waitWake = true := by decide
  have h := ((waitInv_init lockedPiMem (fun t => some t) (fun p => some p)).run hww hs).table
  exact ⟨s, hs, h, futexWake_woken h 0x1000 (by decide) (by decide)⟩

/-! ## The val3 encoding -/

/-- FUTEX_OP(op, oparg, cmp, cmparg) of the Linux ABI. -/
def futexOpEncode (op oparg cmp cmparg : UInt32) : UInt32 :=
  ((op &&& 0xf) <<< 28) ||| ((cmp &&& 0xf) <<< 24) ||| ((oparg &&& 0xfff) <<< 12) ||| (cmparg &&& 0xfff)

/-- sign_extend32(v, 11): a twelve-bit field read as a signed number. -/
def signExtend12 (v : UInt32) : UInt32 :=
  if v &&& 0x800 = 0 then v else v ||| 0xfffff000

/-- The Linux reading of val3 (futex_atomic_op_inuser): the value stored to
the second word, none when the operation is unknown and nothing is stored,
and whether the second word's waiters are woken, which an unknown operation
or comparison (-ENOSYS) never does.  The operations and comparisons are
those of futex_wake_op_apply and futex_wake_op_cmp. -/
def futexAtomicOpLinux (encodedOp oldVal : UInt32) : Option UInt32 × Bool :=
  let op := (encodedOp &&& 0x70000000) >>> 28
  let cmp := (encodedOp &&& 0x0f000000) >>> 24
  let oparg := signExtend12 ((encodedOp &&& 0x00fff000) >>> 12)
  let cmparg := signExtend12 (encodedOp &&& 0x00000fff)
  -- FUTEX_OP_OPARG_SHIFT: oparg is a shift count, taken modulo 32
  let oparg := if encodedOp &&& 0x80000000 ≠ 0 then 1 <<< (oparg &&& 31) else oparg
  if op ≤ 4 then (some (futexWakeOpApply oldVal op oparg), cmp ≤ 5 && futexWakeOpCmp oldVal cmp cmparg)
  else (none, false)

/-- futex_try_cleanup leaves user memory alone. -/
theorem futexTryCleanup_mem (s : FutexSystem) (o : Option Nat) : (futexTryCleanup s o).1.mem = s.mem := by
  unfold futexTryCleanup
  split
  · rfl
  · split <;> rfl

/-- The cleanup of futex_wake_op and futex_requeue leaves user memory. -/
theorem futexCleanupPair_mem (s : FutexSystem) (e1 e2 : Option Nat) (uaddr uaddr2 : Nat) :
    (futexCleanupPair s e1 e2 uaddr uaddr2).mem = s.mem := by
  unfold futexCleanupPair
  dsimp only
  split <;> simp only [futexTryCleanup_mem]

/-- futex_wake_op stores to the second word the operation of bits 12-15 of
val3 with the argument of bits 28-31. -/
theorem futexWakeOp_mem (s : FutexSystem) {uaddr2 : Nat} {oldVal : UInt32} (hmem : s.mem uaddr2 = some oldVal)
    (uaddr : Nat) (nrWake nrWake2 : Int) (val3 : UInt32) :
    (futexWakeOp s uaddr nrWake nrWake2 uaddr2 val3).1.mem uaddr2 =
      some (futexWakeOpApply oldVal ((val3 >>> 12) &&& 0xf) ((val3 >>> 28) &&& 0xf)) := by
  simp only [futexWakeOp, hmem, futexCleanupPair_mem]
  simp [setMem]

/-- FUTEX_OP(FUTEX_OP_SET, 5, FUTEX_OP_CMP_EQ, 0) on a second word holding 7:
Linux stores 5, and futex_wake_op, reading operation 5 and argument 0,
leaves 7. -/
theorem futex_wake_op_reads_op_from_oparg_field :
    futexOpEncode 0 5 0 0 = 0x5000 ∧ (futexAtomicOpLinux 0x5000 7).1 = some 5 ∧
      (futexWakeOp (FutexSystem.init (fun a => if a = 0x2000 then some 7 else none) (fun t => some t)
        (fun p => some p)) 0x1000 1 1 0x2000 0x5000).1.mem 0x2000 = some 7 := by
  refine ⟨by decide, by decide, ?_⟩
  rw [@futexWakeOp_mem _ 0x2000 7 rfl]
  decide

end Uinxed.Futex
