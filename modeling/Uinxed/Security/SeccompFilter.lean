/-
  Security/SeccompFilter.lean --- the filter chains of src/security/seccomp.c.

  Every task has a seccomp mode, a no_new_privs bit and the head of a chain
  of filters.  A filter links to the filter installed before it (prev), and
  chains share their tails: a forked task starts on its parent's head, and a
  thread synchronised by SECCOMP_FILTER_FLAG_TSYNC is moved onto the
  installer's.  A filter counts its references: the tasks whose head it is,
  the filters whose prev it is, and the ptrace lookups that hold it.  The
  filters are the cells of an RcChain heap, seccomp_filter_get and
  seccomp_filter_put are RcChain.get and RcChain.put on it, and a new filter
  takes the next address.

  Every function here runs under proc->seccomp_lock in the source, or, for
  fork and release, while no other task reaches the task it changes; each is
  one atomic step.  seccomp_ptrace_get_filter is two: the lookup under the
  lock, and the put after its copy to user memory, with other steps between.
  Tasks are named by their pids and processes by their tgid.  proc->threads
  keeps every task of a process, in creation order, until the process is
  freed, so the threads of a process are the tasks with its tgid in the
  order of the system's list.  What the code reads from user memory and what
  its allocators return are parameters of the step (InstallEnv).

  The loops over a chain (seccomp_filter_is_ancestor,
  seccomp_filter_chain_has_listener, the count of seccomp_get_nth_filter and
  the walk of seccomp_filter_put) run with fuel nextFilter: a filter links to
  an older one, at a smaller address, so that fuel reads every chain to its
  end.
-/
import Uinxed.Lib.RcChain
import Uinxed.Security.SeccompBpf

set_option autoImplicit false

namespace Uinxed.Seccomp

open RcChain

/-! ## Constants -/

def enoent : Int := 2
def esrch : Int := 3
def enomem : Int := 12
def eacces : Int := 13
def efault : Int := 14
def ebusy : Int := 16
def eopnotsupp : Int := 95

def seccompSetModeStrict : UInt64 := 0
def seccompSetModeFilter : UInt64 := 1
def seccompGetActionAvail : UInt64 := 2
def seccompGetNotifSizes : UInt64 := 3

def seccompFilterFlagTsync : UInt64 := (1 : UInt64) <<< 0
def seccompFilterFlagLog : UInt64 := (1 : UInt64) <<< 1
def seccompFilterFlagSpecAllow : UInt64 := (1 : UInt64) <<< 2
def seccompFilterFlagNewListener : UInt64 := (1 : UInt64) <<< 3
def seccompFilterFlagTsyncEsrch : UInt64 := (1 : UInt64) <<< 4
def seccompFilterFlagWaitKillableRecv : UInt64 := (1 : UInt64) <<< 5

def seccompRetKillProcess : UInt32 := 0x80000000
def seccompRetTrap : UInt32 := 0x00030000
def seccompRetErrno : UInt32 := 0x00050000
def seccompRetUserNotif : UInt32 := 0x7fc00000
def seccompRetTrace : UInt32 := 0x7ff00000
def seccompRetLog : UInt32 := 0x7ffc0000
def seccompRetAllow : UInt32 := 0x7fff0000

/-- SECCOMP_MAX_INSNS_PER_PATH: (1 << 18) / sizeof(struct sock_filter). -/
def seccompMaxInsnsPerPath : Nat := 2 ^ 18 / 8

def seccompFilterChainPenalty : Nat := 4

/-! ## State -/

/-- SECCOMP_MODE_DISABLED, SECCOMP_MODE_STRICT and SECCOMP_MODE_FILTER. -/
inductive SeccompMode
  | disabled
  | strict
  | filter
  deriving DecidableEq, Repr

def SeccompMode.toInt : SeccompMode → Int
  | .disabled => 0
  | .strict => 1
  | .filter => 2

/-- The fields of a task_t that the seccomp code reads: its process, whether
it is TASK_ZOMBIE, and its seccomp state. -/
structure SeccompTask where
  tgid : Nat
  zombie : Bool
  mode : SeccompMode
  noNewPrivs : Bool
  filter : Option Nat
  deriving DecidableEq, Repr

/-- The fields of struct seccomp_filter besides refcount and prev. -/
structure FilterData where
  length : Nat
  totalInsns : Nat
  listener : Bool
  deriving DecidableEq, Repr

/-- The tasks, in creation order, and the heap of filters.  held lists the
filters that ptrace lookups hold between seccomp_get_nth_filter and their
put. -/
structure SeccompSystem where
  tasks : Nat → Option SeccompTask
  threads : List Nat
  filters : Nat → Option (Cell FilterData)
  nextFilter : Nat
  held : List Nat

namespace SeccompSystem

/-- No task and no filter. -/
def init : SeccompSystem := ⟨fun _ => none, [], fun _ => none, 0, []⟩

def setTask (s : SeccompSystem) (p : Nat) (t : SeccompTask) : SeccompSystem :=
  { s with tasks := Function.update s.tasks p (some t) }

/-- The chain from a head, newest filter first. -/
def chain (s : SeccompSystem) (head : Option Nat) : List Nat :=
  follow (link s.filters) s.nextFilter head

/-- proc->threads of the process tgid. -/
def processThreads (s : SeccompSystem) (tgid : Nat) : List Nat :=
  s.threads.filter fun p => (s.tasks p).any fun u => u.tgid == tgid

/-- total_insns of the filter at f. -/
def totalInsns (s : SeccompSystem) (f : Nat) : Nat :=
  ((s.filters f).map fun c => c.data.totalInsns).getD 0

/-- length of the filter at f. -/
def filterLength (s : SeccompSystem) (f : Nat) : Nat :=
  ((s.filters f).map fun c => c.data.length).getD 0

/-- The instructions on a path through a new filter of d.length instructions
on the chain from head: its own, and those of the chain with the penalty for
one more link. -/
def pathInsns (s : SeccompSystem) (d : FilterData) (head : Option Nat) : Nat :=
  d.length + match head with
    | none => 0
    | some g => s.totalInsns g + seccompFilterChainPenalty

/-- calloc of a prepared filter: refcount 1, prev NULL, at the next address. -/
def allocFilter (s : SeccompSystem) (d : FilterData) : SeccompSystem :=
  { s with
    filters := Function.update s.filters s.nextFilter (some ⟨1, none, d⟩)
    nextFilter := s.nextFilter + 1 }

end SeccompSystem

open SeccompSystem

/-- seccomp_filter_get. -/
def seccompFilterGet (s : SeccompSystem) (f : Option Nat) : SeccompSystem :=
  { s with filters := get s.filters f }

/-- seccomp_filter_put. -/
def seccompFilterPut (s : SeccompSystem) (f : Option Nat) : SeccompSystem :=
  { s with filters := put s.filters s.nextFilter f }

/-! ## Tasks -/

/-- seccomp_task_inherit: the child takes the parent's mode, no_new_privs and
head, with a reference on the head. -/
def seccompTaskInherit (s : SeccompSystem) (child : Nat) (c parent : SeccompTask) : SeccompSystem :=
  seccompFilterGet (s.setTask child { c with mode := parent.mode, noNewPrivs := parent.noNewPrivs, filter := parent.filter })
    parent.filter

/-- seccomp_task_release. -/
def seccompTaskRelease (s : SeccompSystem) (p : Nat) : SeccompSystem :=
  match s.tasks p with
  | none => s
  | some t => seccompFilterPut (s.setTask p { t with filter := none, mode := .disabled }) t.filter

/-- A process of its own for a new task t (process_create): task_alloc
zeroes its seccomp state. -/
def seccompCreate (s : SeccompSystem) (t : Nat) : SeccompSystem :=
  match s.tasks t with
  | some _ => s
  | none => { s.setTask t ⟨t, false, .disabled, false, none⟩ with threads := s.threads ++ [t] }

/-- fork (a process of its own) or clone of a thread (the parent's process):
a zeroed task on the process's thread list, then seccomp_task_inherit. -/
def seccompFork (s : SeccompSystem) (parent child : Nat) (thread : Bool) : SeccompSystem :=
  match s.tasks parent, s.tasks child with
  | some pt, none =>
    seccompTaskInherit { s with threads := s.threads ++ [child] } child
      ⟨if thread then pt.tgid else child, false, .disabled, false, none⟩ pt
  | _, _ => s

/-- The task becomes TASK_ZOMBIE. -/
def seccompExit (s : SeccompSystem) (t : Nat) : SeccompSystem :=
  match s.tasks t with
  | none => s
  | some u => s.setTask t { u with zombie := true }

/-- task_free: seccomp_task_release, and the task is gone. -/
def taskFree (s : SeccompSystem) (t : Nat) : SeccompSystem :=
  let s := seccompTaskRelease s t
  { s with tasks := Function.update s.tasks t none, threads := s.threads.erase t }

/-! ## Installing a filter -/

/-- seccomp_filter_is_ancestor. -/
def seccompFilterIsAncestor (s : SeccompSystem) (ancestor filter : Option Nat) : Bool :=
  match ancestor with
  | none => true
  | some a => decide (a ∈ s.chain filter)

/-- seccomp_filter_chain_has_listener. -/
def seccompFilterChainHasListener (s : SeccompSystem) (filter : Option Nat) : Bool :=
  (s.chain filter).any fun g => ((s.filters g).map fun c => c.data.listener).getD false

/-- What seccomp_install_filter reads from user memory and gets from the
allocators. -/
structure InstallEnv where
  /-- proc->uid. -/
  uid : Nat
  /-- The struct sock_fprog at user_filter: its len and whether its filter
  pointer is not NULL; none when user_filter is NULL or the copy faults. -/
  userFprog : Option (Nat × Bool)
  /-- The sock_filters readable at user_program.filter. -/
  userProgram : List SockFilter
  /-- calloc of the filter or malloc of its program returns NULL. -/
  allocFails : Bool
  /-- seccomp_listener_alloc returns NULL. -/
  listenerAllocFails : Bool
  /-- seccomp_listener_node_create and process_fd_install: an error, or the
  installed descriptor. -/
  listenerFd : Except Int Int
  /-- For SECCOMP_GET_ACTION_AVAIL: the action at user_args, none when the
  copy faults. -/
  userAction : Option UInt32
  /-- For SECCOMP_GET_NOTIF_SIZES: whether user_args is writable. -/
  userSizesWritable : Bool

/-- seccomp_prepare_filter: the fields of the new filter, or an error. -/
def seccompPrepareFilter (flags : UInt64) (env : InstallEnv) : Except Int FilterData :=
  match env.userFprog with
  | none => .error (-efault)
  | some (len, hasProgram) =>
    if len = 0 ∨ len > seccompMaxInsnsPerFilter then .error (-einval)
    else if !hasProgram then .error (-efault)
    else if env.allocFails then .error (-enomem)
    else if env.userProgram.length < len then .error (-efault)
    else
      let validation := seccompBpfValidate (env.userProgram.take len)
      if validation ≠ eok then .error validation
      else if flags &&& seccompFilterFlagNewListener ≠ 0 ∧ env.listenerAllocFails then .error (-enomem)
      else .ok ⟨len, 0, flags &&& seccompFilterFlagNewListener ≠ 0⟩

/-- The first TSYNC loop: the first thread of the installer's process that
is not the installer, not a zombie, and either in strict mode or on a chain
that does not run into the installer's. -/
def seccompTsyncOffender (s : SeccompSystem) (cur : Nat) (t : SeccompTask) : Option Nat :=
  (s.processThreads t.tgid).find? fun p =>
    match s.tasks p with
    | none => false
    | some u => p != cur && !u.zombie && (u.mode == .strict || !seccompFilterIsAncestor s u.filter t.filter)

/-- Link the new filter f on the installer's chain: total_insns, prev, and
the installer's head and mode. -/
def SeccompSystem.linkFilter (s : SeccompSystem) (cur : Nat) (t : SeccompTask) (f total : Nat) : SeccompSystem :=
  let filters := match s.filters f with
    | none => s.filters
    | some c => Function.update s.filters f (some { c with prev := t.filter, data := { c.data with totalInsns := total } })
  { s with filters }.setTask cur { t with filter := some f, mode := .filter }

/-- One iteration of the second TSYNC loop: a thread other than the
installer, not a zombie, moves onto the installer's head f. -/
def seccompSyncThread (cur f : Nat) (nnp : Bool) (s : SeccompSystem) (p : Nat) : SeccompSystem :=
  match s.tasks p with
  | none => s
  | some u =>
    if p = cur ∨ u.zombie = true then s
    else
      seccompFilterPut
        ((seccompFilterGet s (some f)).setTask p
          { u with filter := some f, mode := .filter, noNewPrivs := u.noNewPrivs || nnp })
        u.filter

/-- The second TSYNC loop, over proc->threads. -/
def seccompSyncThreads (s : SeccompSystem) (cur : Nat) (t : SeccompTask) (f : Nat) : SeccompSystem :=
  (s.processThreads t.tgid).foldl (seccompSyncThread cur f t.noNewPrivs) s

/-- The part of seccomp_install_filter under proc->seccomp_lock, for the
installer cur (its task t) and the prepared filter f (its fields d). -/
def seccompInstallLocked (s : SeccompSystem) (cur : Nat) (t : SeccompTask) (f : Nat) (d : FilterData) (flags : UInt64)
    (env : InstallEnv) : SeccompSystem × Int :=
  if t.mode = .strict then (seccompFilterPut s (some f), -einval)
  else
    let total := s.pathInsns d t.filter
    if total > seccompMaxInsnsPerPath ∨
        (flags &&& seccompFilterFlagNewListener ≠ 0 ∧ seccompFilterChainHasListener s t.filter = true) then
      (seccompFilterPut s (some f), if total > seccompMaxInsnsPerPath then -enomem else -ebusy)
    else
      match (if flags &&& seccompFilterFlagTsync ≠ 0 then seccompTsyncOffender s cur t else none) with
      | some offender =>
        (seccompFilterPut s (some f), if flags &&& seccompFilterFlagTsyncEsrch ≠ 0 then -esrch else offender)
      | none =>
        match (if d.listener then env.listenerFd else .ok eok) with
        | .error e => (seccompFilterPut s (some f), e)
        | .ok fd =>
          let s := s.linkFilter cur t f total
          let s := if flags &&& seccompFilterFlagTsync ≠ 0 then seccompSyncThreads s cur t f else s
          (s, if d.listener then fd else eok)

/-- Every SECCOMP_FILTER_FLAG_* that seccomp_install_filter accepts. -/
def seccompValidFlags : UInt64 :=
  seccompFilterFlagTsync ||| seccompFilterFlagLog ||| seccompFilterFlagSpecAllow ||| seccompFilterFlagNewListener |||
    seccompFilterFlagTsyncEsrch ||| seccompFilterFlagWaitKillableRecv

/-- seccomp_install_filter. -/
def seccompInstallFilter (s : SeccompSystem) (cur : Nat) (flags : UInt64) (env : InstallEnv) : SeccompSystem × Int :=
  if flags &&& ~~~seccompValidFlags ≠ 0 then (s, -einval)
  else if flags &&& seccompFilterFlagNewListener ≠ 0 ∧ flags &&& seccompFilterFlagTsync ≠ 0 then (s, -einval)
  else if flags &&& seccompFilterFlagTsyncEsrch ≠ 0 ∧ flags &&& seccompFilterFlagTsync = 0 then (s, -einval)
  else if flags &&& seccompFilterFlagWaitKillableRecv ≠ 0 ∧ flags &&& seccompFilterFlagNewListener = 0 then
    (s, -einval)
  else
    match s.tasks cur with
    | none => (s, -esrch)
    | some t =>
      if t.noNewPrivs = false ∧ env.uid ≠ 0 then (s, -eacces)
      else
        match seccompPrepareFilter flags env with
        | .error e => (s, e)
        | .ok d => seccompInstallLocked (s.allocFilter d) cur t s.nextFilter d flags env

/-- seccomp_install_strict. -/
def seccompInstallStrict (s : SeccompSystem) (cur : Nat) : SeccompSystem × Int :=
  match s.tasks cur with
  | none => (s, -esrch)
  | some t => if t.mode ≠ .disabled then (s, -einval) else (s.setTask cur { t with mode := .strict }, eok)

/-! ## The entry points -/

/-- seccomp_action_supported. -/
def seccompActionSupported (action : UInt32) : Bool :=
  action ∈ [seccompRetKillProcess, seccompRetKillThread, seccompRetTrap, seccompRetErrno, seccompRetUserNotif,
    seccompRetTrace, seccompRetLog, seccompRetAllow]

/-- sys_seccomp. -/
def sysSeccomp (s : SeccompSystem) (cur : Nat) (operation flags userArgs : UInt64) (env : InstallEnv) :
    SeccompSystem × Int :=
  if operation = seccompSetModeStrict then
    if flags ≠ 0 ∨ userArgs ≠ 0 then (s, -einval) else seccompInstallStrict s cur
  else if operation = seccompSetModeFilter then seccompInstallFilter s cur flags env
  else if operation = seccompGetActionAvail then
    if flags ≠ 0 then (s, -einval)
    else
      match env.userAction with
      | none => (s, -efault)
      | some action => (s, if seccompActionSupported action then eok else -eopnotsupp)
  else if operation = seccompGetNotifSizes then
    if flags ≠ 0 then (s, -einval) else (s, if env.userSizesWritable then eok else -efault)
  else (s, -einval)

/-- seccomp_prctl_set (PR_SET_SECCOMP). -/
def seccompPrctlSet (s : SeccompSystem) (cur : Nat) (mode : UInt64) (env : InstallEnv) : SeccompSystem × Int :=
  if mode = 1 then seccompInstallStrict s cur
  else if mode = 2 then seccompInstallFilter s cur 0 env
  else (s, -einval)

/-- seccomp_prctl_get (PR_GET_SECCOMP). -/
def seccompPrctlGet (s : SeccompSystem) (cur : Nat) : Int :=
  match s.tasks cur with
  | none => -esrch
  | some t => t.mode.toInt

/-- seccomp_set_no_new_privs (PR_SET_NO_NEW_PRIVS). -/
def seccompSetNoNewPrivs (s : SeccompSystem) (cur : Nat) (value arg3 arg4 arg5 : UInt64) : SeccompSystem × Int :=
  if value ≠ 1 ∨ arg3 ≠ 0 ∨ arg4 ≠ 0 ∨ arg5 ≠ 0 then (s, -einval)
  else
    match s.tasks cur with
    | none => (s, -esrch)
    | some t => (s.setTask cur { t with noNewPrivs := true }, eok)

/-- seccomp_get_nth_filter: the offset-th filter counted from the oldest,
with a reference taken on it. -/
def seccompGetNthFilter (s : SeccompSystem) (target offset : Nat) : SeccompSystem × Option Nat :=
  match s.tasks target with
  | none => (s, none)
  | some t =>
    if t.mode ≠ .filter then (s, none)
    else
      let chain := s.chain t.filter
      if offset ≥ chain.length then (s, none)
      else
        match chain[chain.length - offset - 1]? with
        | none => (s, none)
        | some f => (seccompFilterGet s (some f), some f)

/-- seccomp_ptrace_get_filter up to the release of seccomp_lock: the checks
and the lookup, whose reference the caller holds until
seccompPtraceDone.  The value is the filter's length or an error. -/
def seccompPtraceGetFilter (s : SeccompSystem) (cur target offset uid : Nat) : SeccompSystem × Int :=
  match s.tasks cur with
  | none => (s, -esrch)
  | some c =>
    if uid ≠ 0 ∨ c.mode ≠ .disabled then (s, -eacces)
    else
      match seccompGetNthFilter s target offset with
      | (s', none) => (s', if (s.tasks target).any (fun t => t.mode == .filter) then -enoent else -einval)
      | (s', some f) => ({ s' with held := f :: s'.held }, s'.filterLength f)

/-- The rest of seccomp_ptrace_get_filter: the put of the filter it holds. -/
def seccompPtraceDone (s : SeccompSystem) (f : Nat) : SeccompSystem :=
  if f ∈ s.held then seccompFilterPut { s with held := s.held.erase f } (some f) else s

/-! ## Runs -/

/-- The steps of the system: the seccomp entry points, and the task
lifecycle they depend on. -/
inductive SeccompEvent
  | create (t : Nat)
  | fork (parent child : Nat) (thread : Bool)
  | exit (t : Nat)
  | free (t : Nat)
  | seccomp (t : Nat) (operation flags userArgs : UInt64) (env : InstallEnv)
  | prctlSet (t : Nat) (mode : UInt64) (env : InstallEnv)
  | prctlGet (t : Nat)
  | setNoNewPrivs (t : Nat) (value arg3 arg4 arg5 : UInt64)
  | ptraceGetFilter (t target offset uid : Nat)
  | ptraceDone (f : Nat)

def seccompStep (s : SeccompSystem) : SeccompEvent → SeccompSystem
  | .create t => seccompCreate s t
  | .fork parent child thread => seccompFork s parent child thread
  | .exit t => seccompExit s t
  | .free t => taskFree s t
  | .seccomp t operation flags userArgs env => (sysSeccomp s t operation flags userArgs env).1
  | .prctlSet t mode env => (seccompPrctlSet s t mode env).1
  | .prctlGet _ => s
  | .setNoNewPrivs t value arg3 arg4 arg5 => (seccompSetNoNewPrivs s t value arg3 arg4 arg5).1
  | .ptraceGetFilter t target offset uid => (seccompPtraceGetFilter s t target offset uid).1
  | .ptraceDone f => seccompPtraceDone s f

def seccompRun (s : SeccompSystem) (events : List SeccompEvent) : SeccompSystem :=
  events.foldl seccompStep s

end Uinxed.Seccomp
