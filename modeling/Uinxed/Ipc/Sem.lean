/-
  Ipc/Sem.lean --- System V semaphore sets (sem_array_t, the body of the
  retry loop of sys_semtimedop, the stores of SETVAL and SETALL, and the
  SEM_UNDO records of sys_semtimedop and sem_undo_apply,
  src/ipc/sysv_ipc.c).

  A set keeps its values as uint16_t and an operation is a sembuf_t, whose
  sem_op is an int16_t.  One pass of the retry loop, under the set's lock,
  first tests every operation against the values as they are
  (semWouldBlock), in int16_t: a decrement needs (int16_t)value to be at
  least (int16_t)(-sem_op), a wait-for-zero needs 0.  If none blocks, the
  apply loop runs the operations in order in uint16_t arithmetic (semApply).
  The test never sees what the earlier operations of the same array leave,
  and nothing bounds a value by SEMVMX.

  semSeq is the other side: the operations applied one after another, each
  required to keep its value in [0, vmx] and each wait-for-zero to find 0.
  Whenever it succeeds with vmx at most 0xFFFF, the apply loop computes the
  same values (semApply_eq_of_semSeq).  When the operations name distinct
  semaphores, the test agrees with it for the bound 0xFFFF
  (semWouldBlock_eq_of_nodup), so a pass is semSeq 0xFFFF with SEMVMX
  unchecked (semPass_distinct).  A semaphore named twice is tested twice
  against its old value; Ipc/SemSys.lean runs a set to 65535 that way.

  sempid, otime, ctime and the permissions are left out, with GETPID,
  IPC_STAT and IPC_SET that read them.
-/
import Uinxed.Ipc.Shm

set_option autoImplicit false

namespace Uinxed.Sem

/-! ## Constants -/

def semMaxNsems : Nat := 250
def semMaxSets : Nat := 128
def semOpm : Nat := 500
def semUndo : Nat := 0x1000
def ipcNowait : Nat := 0x0800

/-- SEMVMX, the largest value SEM_INFO reports (info.semvmx). -/
def semvmx : Nat := 32767

def eagain : Int := 11
def efault : Int := 14
def efbig : Int := 27
def eidrm : Int := 43

/-! ## Machine casts -/

/-- (int16_t)x: the low 16 bits of x read as a signed short. -/
def toInt16 (x : Int) : Int := (x + 32768) % 65536 - 32768

/-- (uint16_t)x. -/
def toUint16 (x : Int) : Nat := (x % 65536).toNat

theorem toInt16_of_range {x : Int} (hlo : -32768 ≤ x) (hhi : x < 32768) : toInt16 x = x := by
  unfold toInt16
  omega

theorem toUint16_of_range {x : Int} (hlo : 0 ≤ x) (hhi : x < 65536) : toUint16 x = x.toNat := by
  unfold toUint16
  omega

/-! ## Sets and operations -/

/-- sembuf_t; sem_op is an int16_t, sem_flg is read for SEM_UNDO and IPC_NOWAIT only. -/
structure SemBuf where
  semNum : Nat
  semOp : Int
  semFlg : Nat
  deriving DecidableEq, Repr, Inhabited

/-- sem_array_t: the fields the operations read and write; key and seq are
perm.key and perm.seq. -/
structure SemArray where
  key : Nat
  seq : Nat
  nsems : Nat
  values : List Nat
  semcnt : List Nat
  semzcnt : List Nat
  deleted : Bool
  deriving DecidableEq, Repr

/-- A set as sys_semget makes it: nsems values and counts, all 0. -/
def SemArray.new (key seq nsems : Nat) : SemArray :=
  ⟨key, seq, nsems, List.replicate nsems 0, List.replicate nsems 0, List.replicate nsems 0, false⟩

/-! ## One pass of the retry loop -/

/-- The test of one operation in the feasibility loop. -/
def opBlocks (values : List Nat) (op : SemBuf) : Bool :=
  if op.semOp < 0 then decide (toInt16 (values.getD op.semNum 0) < toInt16 (-op.semOp))
  else if op.semOp = 0 then values.getD op.semNum 0 != 0
  else false

/-- would_block: some operation fails its test against the values as they are;
the loop stops at the first, which gives the same answer. -/
def semWouldBlock (values : List Nat) (ops : List SemBuf) : Bool := ops.any (opBlocks values)

/-- The value part of one turn of the apply loop: a non-zero sem_op moves the
value in uint16_t arithmetic. -/
def applyValue (values : List Nat) (op : SemBuf) : List Nat :=
  if op.semOp ≠ 0 then values.set op.semNum (toUint16 (values.getD op.semNum 0 + op.semOp)) else values

/-- The undo part: a SEM_UNDO operation takes sem_op off its semaphore's
adjustment in int16_t arithmetic. -/
def applyUndo (adj : List Int) (op : SemBuf) : List Int :=
  if op.semFlg &&& semUndo ≠ 0 then adj.set op.semNum (toInt16 (adj.getD op.semNum 0 - op.semOp)) else adj

/-- The apply loop.  Its two stores read nothing of each other, so they are
two folds over the operations. -/
def semApply (values : List Nat) (adj : List Int) (ops : List SemBuf) : List Nat × List Int :=
  (ops.foldl applyValue values, ops.foldl applyUndo adj)

/-- One more at index i of a count array. -/
def bump (l : List Nat) (i : Nat) : List Nat := l.set i (l.getD i 0 + 1)

/-- One less at index i of a count array. -/
def unbump (l : List Nat) (i : Nat) : List Nat := l.set i (l.getD i 0 - 1)

/-- The counting loop before a sleep: semcnt for a decrement, semzcnt for a
wait-for-zero, once per operation. -/
def raiseCount (sem : SemArray) (op : SemBuf) : SemArray :=
  if op.semOp < 0 then { sem with semcnt := bump sem.semcnt op.semNum }
  else if op.semOp = 0 then { sem with semzcnt := bump sem.semzcnt op.semNum }
  else sem

/-- The loop after a wake: a count above 0 goes down by one. -/
def lowerCount (sem : SemArray) (op : SemBuf) : SemArray :=
  if op.semOp < 0 ∧ 0 < sem.semcnt.getD op.semNum 0 then { sem with semcnt := unbump sem.semcnt op.semNum }
  else if op.semOp = 0 ∧ 0 < sem.semzcnt.getD op.semNum 0 then { sem with semzcnt := unbump sem.semzcnt op.semNum }
  else sem

def raiseCounts (sem : SemArray) (ops : List SemBuf) : SemArray := ops.foldl raiseCount sem

def lowerCounts (sem : SemArray) (ops : List SemBuf) : SemArray := ops.foldl lowerCount sem

/-- What one pass of the retry loop does under the set's lock. -/
inductive SemPass where
  /-- The set is marked removed: -EIDRM. -/
  | idrm
  /-- It would block, with IPC_NOWAIT on the first operation or the
  deadline passed: -EAGAIN. -/
  | again
  /-- It would block: the counts raised, the caller sleeps on waitq[q]. -/
  | block (sem : SemArray) (q : Nat)
  /-- Every operation applied; the adjustments to record for SEM_UNDO. -/
  | apply (sem : SemArray) (undoAdj : List Int)
  deriving DecidableEq, Repr

/-- One pass of the retry loop; expired is has_timeout with sched_ticks()
past the deadline.  The array is not empty here (nsops = 0 returned -EINVAL). -/
def semPass (sem : SemArray) (ops : List SemBuf) (undoAdj : List Int) (expired : Bool) : SemPass :=
  if sem.deleted then .idrm
  else if semWouldBlock sem.values ops then
    -- only ksops[0] is asked for IPC_NOWAIT, and only its semaphore's queue is slept on
    if (ops.headD default).semFlg &&& ipcNowait ≠ 0 ∨ expired = true then .again
    else .block (raiseCounts sem ops) (ops.headD default).semNum
  else .apply { sem with values := (semApply sem.values undoAdj ops).1 } (semApply sem.values undoAdj ops).2

/-- A pass that blocks raised the counts of its array. -/
theorem semPass_block {sem sem' : SemArray} {ops : List SemBuf} {undoAdj : List Int} {expired : Bool} {q : Nat}
    (h : semPass sem ops undoAdj expired = .block sem' q) : sem' = raiseCounts sem ops := by
  unfold semPass at h
  split_ifs at h
  cases h
  rfl

/-- A pass that applies changed the values only. -/
theorem semPass_apply {sem sem' : SemArray} {ops : List SemBuf} {undoAdj adj : List Int} {expired : Bool}
    (h : semPass sem ops undoAdj expired = .apply sem' adj) : sem' = { sem with values := (semApply sem.values undoAdj ops).1 } := by
  unfold semPass at h
  split_ifs at h
  cases h
  rfl

/-- The queues a completed semop wakes: a semaphore with a value above 0 or
a waiter for zero. -/
def wakeAfterOp (sem : SemArray) : List Nat :=
  (List.range sem.nsems).filter fun i => 0 < sem.values.getD i 0 || 0 < sem.semzcnt.getD i 0

/-! ## semctl stores and reads -/

/-- What SETVAL stores: (uint16_t)(int16_t)(arg & 0xFFFF). -/
def setvalValue (arg : Nat) : Nat := toUint16 (toInt16 (arg &&& 0xFFFF : Nat))

/-- What GETVAL returns: (int16_t)values[semnum]. -/
def getvalValue (sem : SemArray) (semnum : Nat) : Int := toInt16 (sem.values.getD semnum 0)

/-! ## SEM_UNDO records -/

/-- sem_undo_t. -/
structure SemUndo where
  semid : Nat
  nsems : Nat
  adj : List Int
  proc : Nat
  deriving DecidableEq, Repr

/-- sem_undo_apply: the first min(u->nsems, sem->nsems) adjustments added to
the values in uint16_t arithmetic; with that count, the queues to wake. -/
def semUndoApply (u : SemUndo) (sem : SemArray) : SemArray × Nat :=
  ({ sem with values := sem.values.mapIdx fun (i v : Nat) => if i < min u.nsems sem.nsems then toUint16 ((v : Int) + u.adj.getD i 0) else v },
    min u.nsems sem.nsems)

/-- The merge of a call's adjustments into a record, in int16_t arithmetic,
over the set's nsems semaphores. -/
def mergeUndo (nsems : Nat) (undoAdj : List Int) (u : SemUndo) : SemUndo :=
  { u with adj := u.adj.mapIdx fun i a => if i < nsems then toInt16 (a + undoAdj.getD i 0) else a }

/-- The recording step of sys_semtimedop: the first record of the process for
the semid takes the adjustments, or a new one pushed at the head of
sem_undo_list; when its allocation fails the adjustments are lost. -/
def semUndoRecord (allocFails : Bool) (undos : List SemUndo) (proc semid nsems : Nat) (undoAdj : List Int) :
    List SemUndo :=
  match undos.findIdx? fun u => u.proc == proc && u.semid == semid with
  | some k => undos.modify k (mergeUndo nsems undoAdj)
  | none => if allocFails then undos else mergeUndo nsems undoAdj ⟨semid, nsems, List.replicate nsems 0, proc⟩ :: undos

/-! ## The operations applied one after another -/

/-- One operation on its own: a wait-for-zero needs 0, any other keeps the
value in [0, vmx]; none when it cannot proceed. -/
def seqStep (vmx : Nat) (v : Nat) (op : SemBuf) : Option Nat :=
  if op.semOp = 0 then (if v = 0 then some v else none)
  else if 0 ≤ (v : Int) + op.semOp ∧ (v : Int) + op.semOp ≤ vmx then some ((v : Int) + op.semOp).toNat
  else none

/-- The operations of an array applied one after another, each to the values
the earlier ones left; none when one cannot proceed. -/
def semSeq (vmx : Nat) (values : List Nat) : List SemBuf → Option (List Nat)
  | [] => some values
  | op :: rest => (seqStep vmx (values.getD op.semNum 0) op).bind fun v => semSeq vmx (values.set op.semNum v) rest

/-! ## Stores into a list -/

section Stores

variable {α : Type}

theorem getD_set_of_ne (l : List α) {i j : Nat} (a d : α) (h : i ≠ j) : (l.set i a).getD j d = l.getD j d := by
  simp [List.getD_eq_getElem?_getD, h]

theorem set_getD_self (l : List α) (i : Nat) (d : α) : l.set i (l.getD i d) = l := by
  by_cases h : i < l.length
  · rw [List.getD_eq_getElem?_getD, List.getElem?_eq_getElem h, Option.getD_some, List.set_getElem_self h]
  · exact List.set_eq_of_length_le (by omega)

end Stores

/-! ## The test against the operations applied one after another -/

section Seq

variable {values : List Nat} {op : SemBuf} {ops : List SemBuf}

/-- A store at another semaphore leaves the test of an operation alone. -/
theorem opBlocks_set {j x : Nat} (h : j ≠ op.semNum) : opBlocks (values.set j x) op = opBlocks values op := by
  unfold opBlocks
  rw [getD_set_of_ne _ _ _ h]

/-- A store at a semaphore no operation names leaves the test alone. -/
theorem semWouldBlock_set {j x : Nat} (hj : j ∉ ops.map SemBuf.semNum) :
    semWouldBlock (values.set j x) ops = semWouldBlock values ops := by
  induction ops with
  | nil => simp [semWouldBlock]
  | cons o rest ih =>
    simp only [List.map_cons, List.mem_cons, not_or] at hj
    simp only [semWouldBlock, List.any_cons] at ih ⊢
    rw [ih hj.2, opBlocks_set hj.1]

/-- For a value up to SEMVMX and a sem_op above -32768, the int16_t test
blocks exactly when the operation cannot proceed on its own within 0xFFFF. -/
theorem opBlocks_eq_seqStep (hv : values.getD op.semNum 0 ≤ semvmx) (hop : -32768 < op.semOp ∧ op.semOp < 32768) :
    opBlocks values op = (seqStep 0xFFFF (values.getD op.semNum 0) op).isNone := by
  unfold opBlocks seqStep
  unfold semvmx at hv
  generalize values.getD op.semNum 0 = v at hv ⊢
  by_cases hneg : op.semOp < 0
  · rw [toInt16_of_range (by omega) (by omega), toInt16_of_range (by omega) (by omega)]
    have hz : op.semOp ≠ 0 := by omega
    simp only [hneg, ↓reduceIte, hz]
    -- both sides compare v with -sem_op: the int16_t casts are the identity here
    by_cases hlt : (v : Int) < -op.semOp
    · simp only [hlt, decide_true]
      rw [if_neg (by omega)]
      rfl
    · simp only [hlt, decide_false]
      rw [if_pos (by omega)]
      rfl
  · by_cases hz : op.semOp = 0
    · by_cases hv0 : v = 0 <;> simp [hz, hv0]
    · have : 0 ≤ (v : Int) + op.semOp ∧ (v : Int) + op.semOp ≤ 0xFFFF := by omega
      simp [hneg, hz, this]

/-- Where one operation proceeds within at most 0xFFFF, the apply loop stores
what it leaves. -/
theorem applyValue_of_seqStep {vmx v : Nat} (hvmx : vmx ≤ 0xFFFF) (hs : seqStep vmx (values.getD op.semNum 0) op = some v) :
    applyValue values op = values.set op.semNum v := by
  unfold seqStep at hs
  unfold applyValue
  by_cases hz : op.semOp = 0
  · -- a wait-for-zero stores nothing, and its value stays
    simp only [hz, ↓reduceIte, Option.ite_none_right_eq_some, Option.some.injEq] at hs
    rw [if_neg (not_not.mpr hz), ← hs.2, set_getD_self]
  · simp only [hz, ↓reduceIte, Option.ite_none_right_eq_some, Option.some.injEq] at hs
    rw [if_pos hz, ← hs.2, toUint16_of_range hs.1.1 (by omega)]

/-- Whenever the operations applied one after another succeed within at most
0xFFFF, the apply loop leaves the same values. -/
theorem semApply_eq_of_semSeq {vmx : Nat} (hvmx : vmx ≤ 0xFFFF) {r : List Nat} (adj : List Int)
    (h : semSeq vmx values ops = some r) : (semApply values adj ops).1 = r := by
  induction ops generalizing values with
  | nil => simpa [semSeq, semApply] using h
  | cons o rest ih =>
    simp only [semSeq, Option.bind_eq_some_iff] at h
    obtain ⟨v, hs, hr⟩ := h
    simp only [semApply, List.foldl_cons, applyValue_of_seqStep hvmx hs]
    exact ih hr

/-- On operations that name distinct semaphores, each up to SEMVMX, with no
sem_op of -32768, the test blocks exactly when the operations applied one
after another fail within 0xFFFF. -/
theorem semWouldBlock_eq_of_nodup (hd : (ops.map SemBuf.semNum).Nodup) (hv : ∀ o ∈ ops, values.getD o.semNum 0 ≤ semvmx)
    (hop : ∀ o ∈ ops, -32768 < o.semOp ∧ o.semOp < 32768) :
    semWouldBlock values ops = (semSeq 0xFFFF values ops).isNone := by
  induction ops generalizing values with
  | nil => rfl
  | cons o rest ih =>
    rw [List.map_cons, List.nodup_cons] at hd
    have hb := opBlocks_eq_seqStep (hv o List.mem_cons_self) (hop o List.mem_cons_self)
    simp only [semWouldBlock, List.any_cons, semSeq]
    cases hs : seqStep 0xFFFF (values.getD o.semNum 0) o with
    | none =>
      rw [hs] at hb
      simp [hb]
    | some v =>
      rw [hs] at hb
      -- the rest is tested against the old values, which agree with the new
      -- ones at every semaphore the rest names
      have hv' : ∀ o' ∈ rest, (values.set o.semNum v).getD o'.semNum 0 ≤ semvmx := by
        intro o' ho'
        have hne : o.semNum ≠ o'.semNum := fun he => hd.1 (he ▸ List.mem_map_of_mem ho')
        rw [getD_set_of_ne _ _ _ hne]
        exact hv o' (List.mem_cons_of_mem _ ho')
      have ih' := ih hd.2 hv' fun o' ho' => hop o' (List.mem_cons_of_mem _ ho')
      rw [semWouldBlock_set hd.1] at ih'
      simp only [Option.isNone_some, Option.bind_some] at hb ⊢
      rw [hb, Bool.false_or]
      exact ih'

end Seq

/-- On a live set whose operations name distinct semaphores, each up to SEMVMX,
with every sem_op an int16_t other than -32768, a pass applies exactly what
the operations applied one after another within 0xFFFF leave, and applies
nothing when that fails.  SEMVMX itself is never checked. -/
theorem semPass_distinct (sem : SemArray) (ops : List SemBuf) (undoAdj : List Int) (expired : Bool)
    (hlive : sem.deleted = false) (hd : (ops.map SemBuf.semNum).Nodup)
    (hv : ∀ op ∈ ops, sem.values.getD op.semNum 0 ≤ semvmx)
    (hop : ∀ op ∈ ops, -32768 < op.semOp ∧ op.semOp < 32768) :
    (∀ r, semSeq 0xFFFF sem.values ops = some r →
      semPass sem ops undoAdj expired = .apply { sem with values := r } (ops.foldl applyUndo undoAdj)) ∧
    (semSeq 0xFFFF sem.values ops = none → ∀ sem' adj, semPass sem ops undoAdj expired ≠ .apply sem' adj) := by
  have hblock := semWouldBlock_eq_of_nodup hd hv hop
  constructor
  · intro r hr
    have hnb : semWouldBlock sem.values ops = false := by simp [hblock, hr]
    simp only [semPass, hlive, hnb, Bool.false_eq_true, ↓reduceIte, semApply_eq_of_semSeq (Nat.le_refl _) undoAdj hr]
    rfl
  · intro hn sem' adj
    have hb : semWouldBlock sem.values ops = true := by simp [hblock, hn]
    simp only [semPass, hlive, hb, Bool.false_eq_true, ↓reduceIte]
    split <;> simp

theorem semPass_distinct_two_semaphores :
    (SemArray.mk 0 1 2 [0, 5] [0, 0] [0, 0] false).deleted = false ∧
      ([SemBuf.mk 1 (-2) 0x1000, SemBuf.mk 0 0 0].map SemBuf.semNum).Nodup ∧
      (∀ op ∈ [SemBuf.mk 1 (-2) 0x1000, SemBuf.mk 0 0 0], [0, 5].getD op.semNum 0 ≤ semvmx) ∧
      (∀ op ∈ [SemBuf.mk 1 (-2) 0x1000, SemBuf.mk 0 0 0], -32768 < op.semOp ∧ op.semOp < 32768) ∧
      ((∀ r, semSeq 0xFFFF [0, 5] [SemBuf.mk 1 (-2) 0x1000, SemBuf.mk 0 0 0] = some r →
        semPass (SemArray.mk 0 1 2 [0, 5] [0, 0] [0, 0] false) [SemBuf.mk 1 (-2) 0x1000, SemBuf.mk 0 0 0] [0, 0] false =
          .apply { SemArray.mk 0 1 2 [0, 5] [0, 0] [0, 0] false with values := r }
            ([SemBuf.mk 1 (-2) 0x1000, SemBuf.mk 0 0 0].foldl applyUndo [0, 0])) ∧
      (semSeq 0xFFFF [0, 5] [SemBuf.mk 1 (-2) 0x1000, SemBuf.mk 0 0 0] = none →
        ∀ sem' adj, semPass (SemArray.mk 0 1 2 [0, 5] [0, 0] [0, 0] false) [SemBuf.mk 1 (-2) 0x1000, SemBuf.mk 0 0 0]
          [0, 0] false ≠ .apply sem' adj)) :=
  ⟨rfl, by decide, by decide, by decide,
    semPass_distinct (SemArray.mk 0 1 2 [0, 5] [0, 0] [0, 0] false) _ [0, 0] false rfl (by decide) (by decide) (by decide)⟩

end Uinxed.Sem
