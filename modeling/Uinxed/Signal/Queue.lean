/-
  Signal/Queue.lean --- the pending sets and the siginfo queue of
  src/kernel/signal/signal.c.

  A process keeps one pending set for process-directed signals and one per
  thread, and one FIFO of siginfo entries shared by all of them, each entry
  naming its target (0 for the process, else a thread id).  signal_send and
  signal_send_thread go through signal_send_locked: a standard signal that is
  already pending for its target is coalesced; otherwise an entry is queued
  when the queue has room and the entry can be allocated, and the bit is set
  (a real-time signal that cannot be queued is refused with -EAGAIN, a
  standard one is made pending without an entry).

  signal_dequeue scans the queue first: the first real-time entry in queue
  order that targets the process or the calling thread and is not blocked is
  delivered, whatever standard or lower-numbered real-time signals are also
  pending.  Only when the queue holds no such entry are the standard signals
  scanned in increasing number.  POSIX asks for the lowest-numbered pending
  real-time signal first; a process with real-time signals 40 then 35 queued
  is handed 40.

  The queue is the sequence of its entries, head first: sigqueue_push
  appends, and unlinking an entry removes it from the sequence.  Sets are the
  uint64 bitmaps of the source.  Locks, the signalfd notification, the wake-ups
  and the rate-limited log message of a full queue are left out.
-/
import Mathlib.Data.List.Basic

set_option autoImplicit false

namespace Uinxed.Signal

/-! ## Constants -/

/-- SIGRTMIN. -/
def sigRtMin : Nat := 32

/-- SIGRTMAX. -/
def sigRtMax : Nat := 64

/-- NSIG. -/
def nsig : Nat := 65

/-- SIGQUEUE_MAX. -/
def sigqueueMax : Nat := 32

/-- SIGKILL, SIGCHLD, SIGCONT, SIGSTOP, SIGURG and SIGWINCH. -/
def sigKill : Nat := 9
def sigChld : Nat := 17
def sigCont : Nat := 18
def sigStop : Nat := 19
def sigUrg : Nat := 23
def sigWinch : Nat := 28

/-- SI_USER. -/
def siUser : Int := 0

/-- EAGAIN, ENOMEM and EINVAL. -/
def eagain : Int := 11
def enomem : Int := 12
def einval : Int := 22

/-! ## Signal sets -/

/-- sig_is_rt. -/
def sigIsRt (sig : Nat) : Bool := decide (sigRtMin ≤ sig ∧ sig ≤ sigRtMax)

/-- sig_valid. -/
def sigValid (sig : Nat) : Bool := decide (0 < sig ∧ sig < nsig)

/-- The bit of a signal in a sigset_t. -/
def sigBit (signo : Nat) : UInt64 := 1 <<< (signo - 1).toUInt64

/-- sigaddset. -/
def sigaddset (set : UInt64) (signo : Nat) : UInt64 :=
  if signo = 0 ∨ nsig ≤ signo then set else set ||| sigBit signo

/-- sigdelset. -/
def sigdelset (set : UInt64) (signo : Nat) : UInt64 :=
  if signo = 0 ∨ nsig ≤ signo then set else set &&& ~~~(sigBit signo)

/-- sigismember. -/
def sigismember (set : UInt64) (signo : Nat) : Bool :=
  if signo = 0 ∨ nsig ≤ signo then false else set &&& sigBit signo != 0

/-! ## The state -/

/-- The siginfo_t fields the queue code writes; value stands for the rest of
the union, which it only copies. -/
structure SigInfo where
  signo : Nat
  code : Int
  pid : Int
  uid : Nat
  value : Nat
  deriving DecidableEq, Repr

/-- sigqueue_t without its next pointer. -/
structure SigQueueEntry where
  info : SigInfo
  targetTid : Nat
  deriving DecidableEq, Repr

/-- A disposition: SIG_DFL, SIG_IGN or a handler address. -/
inductive SigHandler where
  | dfl
  | ign
  | handler (addr : Nat)
  deriving DecidableEq, Repr

/-- The fields of signal_state_t the queue code reads and writes; the queue
is the sequence of its entries, head first. -/
structure SignalState where
  pending : UInt64
  sigqueue : List SigQueueEntry
  sigqueueCount : Nat
  sighand : Nat → SigHandler
  groupStopped : Bool

/-- The two signal sets of a thread. -/
structure SigTask where
  signalPending : UInt64
  signalBlocked : UInt64
  deriving DecidableEq, Repr

/-- A process: its signal state, its threads by pid, its main task
(proc->task) and its uid. -/
structure SigProcess where
  signal : SignalState
  tasks : Nat → SigTask
  mainTask : Option Nat
  uid : Nat

/-- signal_state_init: every disposition SIG_DFL, nothing pending or queued. -/
def SignalState.init : SignalState :=
  { pending := 0, sigqueue := [], sigqueueCount := 0, sighand := fun _ => .dfl, groupStopped := false }

/-- is_global_init: the main task has pid 1. -/
def isGlobalInit (p : SigProcess) : Bool := p.mainTask == some 1

/-- The pending set a send to target writes: the thread's, or the process's
for a process-directed signal. -/
def pendingOf (p : SigProcess) : Option Nat → UInt64
  | some t => (p.tasks t).signalPending
  | none => p.signal.pending

/-- Replace the pending set of a target. -/
def setPending (p : SigProcess) (target : Option Nat) (set : UInt64) : SigProcess :=
  match target with
  | some t => { p with tasks := fun u => if u = t then { p.tasks t with signalPending := set } else p.tasks u }
  | none => { p with signal := { p.signal with pending := set } }

/-- The queue entry's target of a send: the thread id, or 0. -/
def targetTidOf : Option Nat → Nat
  | some t => t
  | none => 0

/-! ## Sending -/

/-- signal_task_ignored: whether a signal is dropped before it is queued. -/
def signalTaskIgnored (p : SigProcess) (target : Option Nat) (sig : Nat) : Bool :=
  let maskOwner := target.or p.mainTask
  if (maskOwner.map fun t => sigismember (p.tasks t).signalBlocked sig).getD false then false
  else if isGlobalInit p && (sig == sigKill || sig == sigStop) then true
  else if isGlobalInit p && p.signal.sighand sig == .dfl then true
  else if sig == sigCont then false
  else if p.signal.sighand sig == .ign then true
  else if p.signal.sighand sig == .dfl && (sig == sigChld || sig == sigWinch || sig == sigUrg) then true
  else false

/-- sigqueue_push, when the entry could be allocated. -/
def sigqueuePush (st : SignalState) (info : SigInfo) (targetTid : Nat) : SignalState :=
  { st with sigqueue := st.sigqueue ++ [⟨info, targetTid⟩], sigqueueCount := st.sigqueueCount + 1 }

/-- signal_send_locked: the new process, the return value, newly_pending and
ignored.  alloc says whether sigqueue_alloc succeeds. -/
def signalSendLocked (p : SigProcess) (target : Option Nat) (sig : Nat) (info : Option SigInfo)
    (alloc : Bool) : SigProcess × Int × Bool × Bool :=
  if signalTaskIgnored p target sig then (p, 0, false, true)
  else
    let pending := pendingOf p target
    if !sigIsRt sig && sigismember pending sig then (p, 0, false, false)
    else if sigIsRt sig && sigqueueMax ≤ p.signal.sigqueueCount then (p, -eagain, false, false)
    else
      let queueInfo : SigInfo := match info with
        | some i => { i with signo := sig }
        | none => { signo := sig, code := siUser, pid := (p.mainTask.getD 0 : Int), uid := p.uid, value := 0 }
      -- sigqueue_push when there is room and calloc succeeds, else -ENOMEM
      let (p, queued) : SigProcess × Int :=
        if p.signal.sigqueueCount < sigqueueMax ∧ alloc = true then
          ({ p with signal := sigqueuePush p.signal queueInfo (targetTidOf target) }, 0)
        else (p, -enomem)
      if queued ≠ 0 ∧ sigIsRt sig = true then (p, -eagain, false, false)
      else (setPending p target (sigaddset pending sig), 0, true, false)

/-- The state part of signal_send and signal_send_thread (target none or the
thread): an invalid signal is refused, and a SIGCONT that went through clears
group_stopped. -/
def signalSendTo (p : SigProcess) (target : Option Nat) (sig : Nat) (info : Option SigInfo)
    (alloc : Bool) : SigProcess × Int :=
  if !sigValid sig then (p, -einval)
  else
    let (p, ret, _, _) := signalSendLocked p target sig info alloc
    if ret = 0 ∧ sig = sigCont then ({ p with signal := { p.signal with groupStopped := false } }, ret)
    else (p, ret)

/-- signal_send: a process-directed signal. -/
def signalSend (p : SigProcess) (sig : Nat) (info : Option SigInfo) (alloc : Bool) : SigProcess × Int :=
  signalSendTo p none sig info alloc

/-- signal_send_thread: a signal directed to thread t. -/
def signalSendThread (p : SigProcess) (t : Nat) (sig : Nat) (info : Option SigInfo) (alloc : Bool) :
    SigProcess × Int :=
  signalSendTo p (some t) sig info alloc

/-! ## Dequeueing -/

/-- Unlink the first entry that satisfies m: the entry and the queue without
it. -/
def sigqueueUnlink (m : SigQueueEntry → Bool) : List SigQueueEntry → Option (SigQueueEntry × List SigQueueEntry)
  | [] => none
  | e :: rest => if m e then some (e, rest)
    else (sigqueueUnlink m rest).map fun r => (r.1, e :: r.2)

/-- sigqueue_contains. -/
def sigqueueContains (q : List SigQueueEntry) (sig targetTid : Nat) : Bool :=
  q.any fun e => e.info.signo == sig && e.targetTid == targetTid

/-- An entry for the calling thread: process-directed or directed to it. -/
def targetMatches (tid : Nat) (e : SigQueueEntry) : Bool :=
  e.targetTid == 0 || e.targetTid == tid

/-- What the first loop of signal_dequeue takes: a real-time entry for the
thread whose signal it does not block. -/
def rtDeliverable (blocked : UInt64) (tid : Nat) (e : SigQueueEntry) : Bool :=
  sigIsRt e.info.signo && targetMatches tid e && !sigismember blocked e.info.signo

/-- Drop the queue's entry, and clear the signal's bit of its target when no
entry for the same signal and target is left. -/
def settleDequeued (p : SigProcess) (tid : Nat) (rest : List SigQueueEntry) (sig targetTid : Nat) :
    SigProcess :=
  let p := { p with signal := { p.signal with sigqueue := rest, sigqueueCount := p.signal.sigqueueCount - 1 } }
  if sigqueueContains rest sig targetTid then p
  else if targetTid ≠ 0 then setPending p (some tid) (sigdelset (p.tasks tid).signalPending sig)
  else setPending p none (sigdelset p.signal.pending sig)

/-- signal_dequeue for thread tid: the new process, the signal or -1, and the
siginfo written (none when it is left untouched). -/
def signalDequeue (p : SigProcess) (tid : Nat) : SigProcess × Int × Option SigInfo :=
  let blocked := (p.tasks tid).signalBlocked
  -- real-time entries first, in queue order
  match sigqueueUnlink (rtDeliverable blocked tid) p.signal.sigqueue with
  | some (e, rest) => (settleDequeued p tid rest e.info.signo e.targetTid, e.info.signo, some e.info)
  | none =>
    -- then standard signals in numeric order
    let ready := (p.signal.pending ||| (p.tasks tid).signalPending) &&& ~~~blocked
    match (List.range' 1 (sigRtMin - 1)).find? (sigismember ready) with
    | none => (p, -1, none)
    | some sig =>
      let targetTid := if sigismember (p.tasks tid).signalPending sig then tid else 0
      match sigqueueUnlink (fun e => e.info.signo == sig && targetMatches tid e) p.signal.sigqueue with
      | some (e, rest) => (settleDequeued p tid rest sig e.targetTid, sig, some e.info)
      | none =>
        let p' := if sigqueueContains p.signal.sigqueue sig targetTid then p
          else if targetTid ≠ 0 then setPending p (some tid) (sigdelset (p.tasks tid).signalPending sig)
          else setPending p none (sigdelset p.signal.pending sig)
        (p', sig, some { signo := sig, code := siUser, pid := 0, uid := 0, value := 0 })

/-! ## Runs -/

/-- The calls on one process's signals. -/
inductive SignalOp where
  | send (sig : Nat) (info : Option SigInfo) (alloc : Bool)
  | sendThread (t sig : Nat) (info : Option SigInfo) (alloc : Bool)
  | dequeue (tid : Nat)

/-- One call. -/
def signalStep (p : SigProcess) : SignalOp → SigProcess
  | .send sig info alloc => (signalSend p sig info alloc).1
  | .sendThread t sig info alloc => (signalSendThread p t sig info alloc).1
  | .dequeue tid => (signalDequeue p tid).1

/-- A sequence of calls. -/
def runSignalOps (p : SigProcess) (ops : List SignalOp) : SigProcess :=
  ops.foldl signalStep p

/-! ## The order of delivery -/

/-- A process (main thread 2, nothing blocked) sent SIGUSR1, then real-time
signals 40 and 35: signal_dequeue hands out 40, though SIGUSR1 and 35 are
pending and unblocked and both have lower numbers. -/
theorem signalDequeue_rt_before_lower :
    (signalDequeue (runSignalOps ⟨SignalState.init, fun _ => ⟨0, 0⟩, some 2, 0⟩
      [.send 10 none true, .send 40 none true, .send 35 none true]) 2).2.1 = 40 ∧
    sigismember (runSignalOps ⟨SignalState.init, fun _ => ⟨0, 0⟩, some 2, 0⟩
      [.send 10 none true, .send 40 none true, .send 35 none true]).signal.pending 10 = true ∧
    sigismember (runSignalOps ⟨SignalState.init, fun _ => ⟨0, 0⟩, some 2, 0⟩
      [.send 10 none true, .send 40 none true, .send 35 none true]).signal.pending 35 = true := by
  decide

end Uinxed.Signal
