/-
  Ipc/SemSys.lean --- the semaphore calls of many tasks, interleaved
  (sys_semget, sys_semtimedop, sys_semctl with SETVAL, SETALL, GETVAL,
  GETNCNT, GETZCNT and IPC_RMID, and sysv_sem_undo_release,
  src/ipc/sysv_ipc.c).

  A set lives at an address: sem_sets[idx] holds the address, sem_seq[idx]
  its sequence, and heap what the memory there holds, none once IPC_RMID
  has freed it.  A task keeps the pointer ipc_id_lookup gave it, with no
  lock and no reference held, and reads through it in every later section.
  A section that finds the memory freed is a use after free: the task stops
  there (freedAccess).

  What runs under one lock is one step.  sys_semtimedop is the lookup, the
  check of each sem_num against nsems, then passes of the retry loop: a pass
  that would block raises the counts and sleeps on the queue of
  ksops[0].sem_num; a woken task takes the lock again to lower its counts
  and passes again; a pass that applies the operations records the undo
  adjustments and wakes the queues of wakeAfterOp.  semctl is the lookup,
  then the command; IPC_RMID unlinks the id, marks the set, wakes every
  queue and, in a later step, frees the set.  Process exit replays the undo
  records under the table lock in one step.  A task makes one call at a
  time; which task runs next is the event list.

  Left out: the permission checks (every task is root), allocation
  failures, timeouts (semop passes NULL), and copy_from_user faults other
  than a SETALL array shorter than nsems.
-/
import Uinxed.Ipc.Sem

set_option autoImplicit false

namespace Uinxed.Sem

open Uinxed.Process Uinxed.Shm

/-! ## Calls, tasks and the system -/

/-- The semctl commands. -/
inductive SemCtl where
  | setval (semnum arg : Nat)
  | setall (vals : List Nat)
  | getval (semnum : Nat)
  | getncnt (semnum : Nat)
  | getzcnt (semnum : Nat)
  | rmid
  deriving DecidableEq, Repr

inductive SemCall where
  | semget (key nsems semflg : Nat)
  | semop (semid : Nat) (ops : List SemBuf)
  | semctl (semid : Nat) (cmd : SemCtl)
  | exit
  deriving DecidableEq, Repr

/-- Where a task is in its call; addr is the pointer it holds. -/
inductive SemPc where
  | idle
  /-- semtimedop after ipc_id_lookup. -/
  | looked (addr semid : Nat) (ops : List SemBuf)
  /-- At the top of the retry loop. -/
  | retry (addr semid : Nat) (ops : List SemBuf)
  /-- Asleep on waitq[q]. -/
  | asleep (addr semid : Nat) (ops : List SemBuf) (q : Nat)
  /-- Woken, before it takes the lock to lower its counts. -/
  | woken (addr semid : Nat) (ops : List SemBuf)
  /-- semctl after ipc_id_lookup. -/
  | ctl (addr semid : Nat) (cmd : SemCtl)
  /-- IPC_RMID after its wake-up of every queue, before the frees. -/
  | rmidFree (addr : Nat)
  /-- It went through its pointer after the set there was freed. -/
  | freedAccess (addr : Nat)
  deriving DecidableEq, Repr

structure SemSystem where
  /-- sem_sets[idx]. -/
  slots : Nat → Option Nat
  /-- sem_seq[idx]. -/
  seqs : Nat → Nat
  /-- The set each address holds. -/
  heap : Nat → Option SemArray
  /-- The address the next malloc returns. -/
  fresh : Nat
  /-- sem_undo_list. -/
  undos : List SemUndo
  /-- Each task, by pid. -/
  tasks : List SemPc

/-- n idle tasks and no set. -/
def SemSystem.boot (n : Nat) : SemSystem := ⟨fun _ => none, fun _ => 0, fun _ => none, 0, [], List.replicate n .idle⟩

/-- What can happen next: an idle task makes a call, or a task in a call
takes its next section. -/
inductive SemEvent where
  | call (t : Nat) (c : SemCall)
  | run (t : Nat)
  deriving DecidableEq, Repr

namespace SemSystem

variable (s : SemSystem)

def pc (t : Nat) : SemPc := s.tasks.getD t .idle

def setPc (t : Nat) (pc : SemPc) : SemSystem := { s with tasks := s.tasks.set t pc }

def setHeap (addr : Nat) (v : Option SemArray) : SemSystem := { s with heap := fun a => if a = addr then v else s.heap a }

/-- The call of task t returns r. -/
def ret (t : Nat) (r : Int) : SemSystem × List (Nat × Int) := (s.setPc t .idle, [(t, r)])

/-- Task t went through a pointer to freed memory. -/
def freed (t addr : Nat) : SemSystem × List (Nat × Int) := (s.setPc t (.freedAccess addr), [])

/-- wait_queue_wake_all on waitq[q] of the set at addr, for each q of qs. -/
def wakePc (addr : Nat) (qs : List Nat) : SemPc → SemPc
  | .asleep a semid ops q => if a = addr ∧ q ∈ qs then .woken a semid ops else .asleep a semid ops q
  | pc => pc

def wake (addr : Nat) (qs : List Nat) : SemSystem := { s with tasks := s.tasks.map (wakePc addr qs) }

/-- ipc_id_lookup: the set in slot semid & IPC_ID_MASK, if its sequence matches. -/
def lookup (semid : Nat) : Option Nat :=
  if semid &&& ipcIdMask < semMaxSets ∧ s.seqs (semid &&& ipcIdMask) = (semid >>> ipcSeqShift) &&& ipcSeqMask then
    s.slots (semid &&& ipcIdMask)
  else none

/-- ipc_id_remove: the slot emptied, or none (-EINVAL) on a stale id. -/
def idRemove (semid : Nat) : Option SemSystem :=
  match s.lookup semid with
  | some _ => some { s with slots := fun i => if i = semid &&& ipcIdMask then none else s.slots i }
  | none => none

/-- ipc_id_remove touches nothing but the slot. -/
theorem idRemove_eq {semid : Nat} {s' : SemSystem} (h : s.idRemove semid = some s') :
    s' = { s with slots := fun i => if i = semid &&& ipcIdMask then none else s.slots i } := by
  unfold idRemove at h
  split at h
  · exact (Option.some.inj h).symm
  · cases h

/-- The first slot holding a set with the key. -/
def findKey (key : Nat) : Option (Nat × SemArray) :=
  (List.range semMaxSets).findSome? fun i =>
    (s.slots i).bind fun addr => (s.heap addr).bind fun sem => if sem.key = key then some (i, sem) else none

/-- ipc_id_alloc: the first free slot, its sequence number bumped (never 0). -/
def idAlloc : Option (Nat × Nat) :=
  ((List.range semMaxSets).find? fun i => (s.slots i).isNone).map fun i =>
    (i, if (s.seqs i + 1) % 65536 = 0 then 1 else (s.seqs i + 1) % 65536)

/-! ### Field lemmas -/

@[simp] theorem setPc_heap (t : Nat) (pc : SemPc) : (s.setPc t pc).heap = s.heap := rfl
@[simp] theorem setPc_fresh (t : Nat) (pc : SemPc) : (s.setPc t pc).fresh = s.fresh := rfl
@[simp] theorem setPc_slots (t : Nat) (pc : SemPc) : (s.setPc t pc).slots = s.slots := rfl
@[simp] theorem setPc_tasks (t : Nat) (pc : SemPc) : (s.setPc t pc).tasks = s.tasks.set t pc := rfl
@[simp] theorem setHeap_heap (addr : Nat) (v : Option SemArray) (a : Nat) :
    (s.setHeap addr v).heap a = if a = addr then v else s.heap a := rfl
@[simp] theorem setHeap_fresh (addr : Nat) (v : Option SemArray) : (s.setHeap addr v).fresh = s.fresh := rfl
@[simp] theorem setHeap_slots (addr : Nat) (v : Option SemArray) : (s.setHeap addr v).slots = s.slots := rfl
@[simp] theorem setHeap_tasks (addr : Nat) (v : Option SemArray) : (s.setHeap addr v).tasks = s.tasks := rfl
@[simp] theorem wake_heap (addr : Nat) (qs : List Nat) : (s.wake addr qs).heap = s.heap := rfl
@[simp] theorem wake_fresh (addr : Nat) (qs : List Nat) : (s.wake addr qs).fresh = s.fresh := rfl
@[simp] theorem wake_slots (addr : Nat) (qs : List Nat) : (s.wake addr qs).slots = s.slots := rfl
@[simp] theorem wake_tasks (addr : Nat) (qs : List Nat) : (s.wake addr qs).tasks = s.tasks.map (wakePc addr qs) := rfl
@[simp] theorem setHeap_pc (addr : Nat) (v : Option SemArray) (t : Nat) : (s.setHeap addr v).pc t = s.pc t := rfl
@[simp] theorem ret_fst (t : Nat) (r : Int) : (s.ret t r).1 = s.setPc t .idle := rfl
@[simp] theorem freed_fst (t addr : Nat) : (s.freed t addr).1 = s.setPc t (.freedAccess addr) := rfl

theorem wake_pc (addr : Nat) (qs : List Nat) (t : Nat) : (s.wake addr qs).pc t = wakePc addr qs (s.pc t) := by
  simp only [pc, wake_tasks, List.getD_eq_getElem?_getD, List.getElem?_map]
  cases s.tasks[t]? <;> rfl

/-- A task in a call is one of the table's. -/
theorem pc_mem {t : Nat} (h : s.pc t ≠ .idle) : t < s.tasks.length ∧ s.pc t ∈ s.tasks := by
  unfold pc at h ⊢
  by_cases ht : t < s.tasks.length
  · refine ⟨ht, ?_⟩
    rw [List.getD_eq_getElem?_getD, List.getElem?_eq_getElem ht, Option.getD_some]
    exact List.getElem_mem ht
  · rw [List.getD_eq_getElem?_getD, List.getElem?_eq_none (by omega), Option.getD_none] at h
    exact absurd rfl h

/-- What ipc_id_lookup returns is what a slot holds. -/
theorem lookup_some {semid addr : Nat} (h : s.lookup semid = some addr) : ∃ i, s.slots i = some addr := by
  unfold lookup at h
  split at h
  · exact ⟨_, h⟩
  · cases h

end SemSystem

/-! ## The calls -/

/-- sys_semget. -/
def sysSemget (s : SemSystem) (key nsems semflg : Nat) : SemSystem × Int :=
  if nsems > semMaxNsems then (s, -einval)
  else if nsems = 0 ∧ semflg &&& ipcCreat ≠ 0 then (s, -einval)
  else
    match (if key ≠ 0 then s.findKey key else none) with
    | some (i, sem) =>
      if semflg &&& (ipcCreat ||| ipcExcl) = ipcCreat ||| ipcExcl then (s, -eexist)
      else if nsems > 0 ∧ nsems > sem.nsems then (s, -einval)
      else (s, sem.seq <<< ipcSeqShift ||| i)
    | none =>
      if semflg &&& ipcCreat = 0 then (s, -enoent)
      else
        match s.idAlloc with
        | none => (s, -enospc)
        | some (idx, seq) =>
          ({ s with
              slots := fun i => if i = idx then some s.fresh else s.slots i
              seqs := fun i => if i = idx then seq else s.seqs i
              heap := fun a => if a = s.fresh then some (SemArray.new key seq nsems) else s.heap a
              fresh := s.fresh + 1 },
            seq <<< ipcSeqShift ||| idx)

/-- One record of sysv_sem_undo_release: replayed on its set if the id still
names one (ipc_id_lookup_held), waking the first n queues. -/
def semUndoReplay (s : SemSystem) (u : SemUndo) : SemSystem :=
  match s.lookup u.semid with
  | none => s
  | some addr =>
    match s.heap addr with
    | none => s
    | some sem => (s.setHeap addr (some (semUndoApply u sem).1)).wake addr (List.range (semUndoApply u sem).2)

theorem sysSemget_tasks (s : SemSystem) (key nsems semflg : Nat) : (sysSemget s key nsems semflg).1.tasks = s.tasks := by
  unfold sysSemget
  repeat' split
  all_goals rfl

/-- sysv_sem_undo_release(proc): each record of the process is replayed, in
list order, and all of them leave the list. -/
def semUndoRelease (s : SemSystem) (proc : Nat) : SemSystem :=
  { (s.undos.filter fun u => u.proc = proc).foldl semUndoReplay s with undos := s.undos.filter fun u => u.proc ≠ proc }

/-- The first section of a call. -/
def semCall (s : SemSystem) (t : Nat) : SemCall → SemSystem × List (Nat × Int)
  | .semget key nsems semflg => (sysSemget s key nsems semflg).1.ret t (sysSemget s key nsems semflg).2
  | .semop semid ops =>
    if ops = [] ∨ ops.length > semOpm then s.ret t (-einval)
    else
      match s.lookup semid with
      | none => s.ret t (-einval)
      | some addr => (s.setPc t (.looked addr semid ops), [])
  | .semctl semid cmd =>
    match s.lookup semid with
    | none => s.ret t (-einval)
    | some addr => (s.setPc t (.ctl addr semid cmd), [])
  | .exit => (semUndoRelease s t, [])

/-- The check of every sem_num against nsems. -/
def semopCheck (s : SemSystem) (t addr semid : Nat) (ops : List SemBuf) : SemSystem × List (Nat × Int) :=
  match s.heap addr with
  | none => s.freed t addr
  | some sem =>
    if ops.any fun o => sem.nsems ≤ o.semNum then s.ret t (-efbig) else (s.setPc t (.retry addr semid ops), [])

/-- One pass of the retry loop, with what follows a pass that applies: the
undo record, then the wake-ups. -/
def semopPass (s : SemSystem) (t addr semid : Nat) (ops : List SemBuf) : SemSystem × List (Nat × Int) :=
  match s.heap addr with
  | none => s.freed t addr
  | some sem =>
    match semPass sem ops (List.replicate sem.nsems 0) false with
    | .idrm => s.ret t (-eidrm)
    | .again => s.ret t (-eagain)
    | .block sem' q => ((s.setHeap addr (some sem')).setPc t (.asleep addr semid ops q), [])
    | .apply sem' adj =>
      let undos := if ops.any fun o => o.semFlg &&& semUndo ≠ 0 then semUndoRecord false s.undos t semid sem'.nsems adj
        else s.undos
      ({ s.setHeap addr (some sem') with undos := undos }.wake addr (wakeAfterOp sem')).ret t 0

/-- After a wake-up: the counts taken back under the lock, then the next pass. -/
def semopRecount (s : SemSystem) (t addr semid : Nat) (ops : List SemBuf) : SemSystem × List (Nat × Int) :=
  match s.heap addr with
  | none => s.freed t addr
  | some sem => ((s.setHeap addr (some (lowerCounts sem ops))).setPc t (.retry addr semid ops), [])

/-- A semctl read of one semaphore: -EINVAL past nsems. -/
def semctlRead (sem : SemArray) (semnum : Nat) (read : Int) : Int := if sem.nsems ≤ semnum then -einval else read

/-- The command of a semctl call, on the set its lookup found. -/
def semctlRun (s : SemSystem) (t addr semid : Nat) (cmd : SemCtl) : SemSystem × List (Nat × Int) :=
  match s.heap addr with
  | none => s.freed t addr
  | some sem =>
    match cmd with
    | .rmid =>
      match s.idRemove semid with
      | none => s.ret t (-einval)
      | some s' => (((s'.setHeap addr (some { sem with deleted := true })).wake addr (List.range sem.nsems)).setPc t
          (.rmidFree addr), [])
    | .setval semnum arg =>
      if sem.nsems ≤ semnum then s.ret t (-einval)
      else ((s.setHeap addr (some { sem with values := sem.values.set semnum (setvalValue arg) })).wake addr [semnum]).ret t 0
    | .setall vals =>
      if vals.length < sem.nsems then s.ret t (-efault)
      else
        ((s.setHeap addr (some { sem with values := (vals.take sem.nsems).map (· % 65536) })).wake addr
          (List.range sem.nsems)).ret t 0
    | .getval semnum => s.ret t (semctlRead sem semnum (getvalValue sem semnum))
    | .getncnt semnum => s.ret t (semctlRead sem semnum (sem.semcnt.getD semnum 0))
    | .getzcnt semnum => s.ret t (semctlRead sem semnum (sem.semzcnt.getD semnum 0))

/-- One event; the calls that returned, with what they returned. -/
def semStep (s : SemSystem) : SemEvent → SemSystem × List (Nat × Int)
  | .call t c => if t < s.tasks.length ∧ s.pc t = .idle then semCall s t c else (s, [])
  | .run t =>
    match s.pc t with
    | .looked addr semid ops => semopCheck s t addr semid ops
    | .retry addr semid ops => semopPass s t addr semid ops
    | .woken addr semid ops => semopRecount s t addr semid ops
    | .ctl addr semid cmd => semctlRun s t addr semid cmd
    | .rmidFree addr => (s.setHeap addr none).ret t 0
    | _ => (s, [])

/-- A run of events, with the returns in step order. -/
def semRun : SemSystem → List SemEvent → SemSystem × List (Nat × Int)
  | s, [] => (s, [])
  | s, e :: es => ((semRun (semStep s e).1 es).1, (semStep s e).2 ++ (semRun (semStep s e).1 es).2)

/-! ## Tasks with no section pending -/

/-- A task with no section to run: idle, or asleep until a wake-up. -/
def SemPc.quiet : SemPc → Bool
  | .idle => true
  | .asleep .. => true
  | _ => false

/-- A quiet task's section event changes nothing. -/
theorem semStep_run_of_quiet {s : SemSystem} {t : Nat} (h : (s.pc t).quiet = true) : semStep s (.run t) = (s, []) := by
  unfold semStep
  cases hp : s.pc t <;> simp_all [SemPc.quiet]

/-- When every task is quiet, section events alone change nothing: a sleeper
is woken only by a new call. -/
theorem semRun_of_quiet {s : SemSystem} (h : ∀ t, (s.pc t).quiet = true) (evs : List SemEvent)
    (hruns : ∀ e ∈ evs, ∃ t, e = .run t) : semRun s evs = (s, []) := by
  induction evs with
  | nil => rfl
  | cons e rest ih =>
    obtain ⟨t, rfl⟩ := hruns e List.mem_cons_self
    simp only [semRun, semStep_run_of_quiet (h t), ih fun e he => hruns e (List.mem_cons_of_mem _ he), List.nil_append]

/-- The tasks past the end of the table are idle. -/
theorem SemSystem.pc_of_length_le {s : SemSystem} {t : Nat} (h : s.tasks.length ≤ t) : s.pc t = .idle := by
  simp [SemSystem.pc, List.getD_eq_getElem?_getD, List.getElem?_eq_none h]

/-! ## Runs that leave the sequential semantics -/

/-- A decrement named twice on a semaphore of value 1 passes both tests
against the old value and takes it to 65535, which GETVAL reads as -1, where
the operations applied one after another cannot proceed; and a SEM_UNDO
adjustment replayed at exit takes a value of 0 to 65535 as well. -/
theorem semop_repeated_decrement_wraps :
    semSeq semvmx [1] [⟨0, -1, 0⟩, ⟨0, -1, 0⟩] = none ∧
    (semRun (SemSystem.boot 1) [.call 0 (.semget 7 1 (ipcCreat ||| 0x180)), .call 0 (.semctl 65536 (.setval 0 1)), .run 0,
        .call 0 (.semop 65536 [⟨0, -1, 0⟩, ⟨0, -1, 0⟩]), .run 0, .run 0, .call 0 (.semctl 65536 (.getval 0)), .run 0]).2 =
      [(0, 65536), (0, 0), (0, 0), (0, -1)] ∧
    ((semRun (SemSystem.boot 1) [.call 0 (.semget 7 1 (ipcCreat ||| 0x180)), .call 0 (.semctl 65536 (.setval 0 1)), .run 0,
        .call 0 (.semop 65536 [⟨0, -1, 0⟩, ⟨0, -1, 0⟩]), .run 0, .run 0]).1.heap 0).map SemArray.values = some [65535] ∧
    ((semRun (SemSystem.boot 2) [.call 0 (.semget 7 1 (ipcCreat ||| 0x180)), .call 0 (.semop 65536 [⟨0, 1, semUndo⟩]), .run 0,
        .run 0, .call 1 (.semop 65536 [⟨0, -1, 0⟩]), .run 1, .run 1, .call 0 .exit]).1.heap 0).map SemArray.values =
      some [65535] := by
  refine ⟨by decide, by decide, by decide, by decide⟩

/-- Three runs against the blocking protocol.  A caller whose first operation
is on semaphore 0 sleeps on waitq[0]; a semop that makes its whole array
applicable wakes only waitq[1], every task is then quiet, and no section
ever wakes it.  A caller woken by IPC_RMID takes the lock of the set after
the set was freed.  One caller blocked with two decrements on a semaphore
makes GETNCNT return 2. -/
theorem semop_sleeper_missed_and_freed :
    ((semRun (SemSystem.boot 2) [.call 0 (.semget 7 2 (ipcCreat ||| 0x180)),
        .call 0 (.semop 65536 [⟨0, 1, 0⟩, ⟨1, -1, 0⟩]), .run 0, .run 0, .call 1 (.semop 65536 [⟨1, 1, 0⟩]), .run 1,
        .run 1]).1.pc 0 = .asleep 0 65536 [⟨0, 1, 0⟩, ⟨1, -1, 0⟩] 0 ∧
      ((semRun (SemSystem.boot 2) [.call 0 (.semget 7 2 (ipcCreat ||| 0x180)),
        .call 0 (.semop 65536 [⟨0, 1, 0⟩, ⟨1, -1, 0⟩]), .run 0, .run 0, .call 1 (.semop 65536 [⟨1, 1, 0⟩]), .run 1,
        .run 1]).1.heap 0).map (fun sem => semWouldBlock sem.values [⟨0, 1, 0⟩, ⟨1, -1, 0⟩]) = some false ∧
      ∀ evs : List SemEvent, (∀ e ∈ evs, ∃ t, e = .run t) →
        (semRun (semRun (SemSystem.boot 2) [.call 0 (.semget 7 2 (ipcCreat ||| 0x180)),
          .call 0 (.semop 65536 [⟨0, 1, 0⟩, ⟨1, -1, 0⟩]), .run 0, .run 0, .call 1 (.semop 65536 [⟨1, 1, 0⟩]), .run 1,
          .run 1]).1 evs).1.pc 0 = .asleep 0 65536 [⟨0, 1, 0⟩, ⟨1, -1, 0⟩] 0) ∧
    (semRun (SemSystem.boot 2) [.call 0 (.semget 7 1 (ipcCreat ||| 0x180)), .call 0 (.semop 65536 [⟨0, -1, 0⟩]), .run 0,
        .run 0, .call 1 (.semctl 65536 .rmid), .run 1, .run 1, .run 0]).1.pc 0 = .freedAccess 0 ∧
    (semRun (SemSystem.boot 2) [.call 0 (.semget 7 1 (ipcCreat ||| 0x180)),
        .call 0 (.semop 65536 [⟨0, -1, 0⟩, ⟨0, -1, 0⟩]), .run 0, .run 0, .call 1 (.semctl 65536 (.getncnt 0)),
        .run 1]).2 = [(0, 65536), (1, 2)] := by
  refine ⟨⟨by decide, by decide, fun evs hruns => ?_⟩, by decide, by decide⟩
  -- every task is quiet after the run: task 0 asleep, task 1 idle, none past them
  have hlen : (semRun (SemSystem.boot 2) [.call 0 (.semget 7 2 (ipcCreat ||| 0x180)),
      .call 0 (.semop 65536 [⟨0, 1, 0⟩, ⟨1, -1, 0⟩]), .run 0, .run 0, .call 1 (.semop 65536 [⟨1, 1, 0⟩]), .run 1,
      .run 1]).1.tasks.length = 2 := by decide
  have hquiet : ∀ t, ((semRun (SemSystem.boot 2) [.call 0 (.semget 7 2 (ipcCreat ||| 0x180)),
      .call 0 (.semop 65536 [⟨0, 1, 0⟩, ⟨1, -1, 0⟩]), .run 0, .run 0, .call 1 (.semop 65536 [⟨1, 1, 0⟩]), .run 1,
      .run 1]).1.pc t).quiet = true := by
    intro t
    by_cases ht : t < 2
    · have hsmall : ∀ t < 2, ((semRun (SemSystem.boot 2) [.call 0 (.semget 7 2 (ipcCreat ||| 0x180)),
          .call 0 (.semop 65536 [⟨0, 1, 0⟩, ⟨1, -1, 0⟩]), .run 0, .run 0, .call 1 (.semop 65536 [⟨1, 1, 0⟩]), .run 1,
          .run 1]).1.pc t).quiet = true := by decide
      exact hsmall t ht
    · rw [SemSystem.pc_of_length_le (by omega)]
      rfl
  rw [semRun_of_quiet hquiet evs hruns]
  decide

end Uinxed.Sem
