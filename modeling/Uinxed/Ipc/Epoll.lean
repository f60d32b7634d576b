/-
  Ipc/Epoll.lean --- the registrations of epoll instances and the graph they
  form (epoll_path_reaches, epoll_item_find, epoll_item_add, epoll_item_del,
  epoll_item_mod, epoll_target_close and sys_epoll_ctl, src/ipc/epoll.c).

  An instance keeps an item per registered descriptor in items[fd], with
  fd_count and max_fd beside them.  A descriptor of the process names an
  epoll instance or another file; an instance A watching an instance B is an
  edge A → B of the registration graph (EpollSystem.Edge), and readiness of
  B is passed on to A by epoll_item_notify through vfs_poll_notify, one call
  deeper per edge.

  sys_epoll_ctl refuses an ADD of B to A when epoll_path_reaches(B, A, 0)
  holds: when B reaches A, or when the walk from B goes EPOLL_MAX_NESTS
  deep.  The walk starts at B and looks forward only; nothing counts the
  edges that already lead into A.  So a chain grows one edge at a time at
  its end, each new end a leaf, past any depth
  (epoll_ctl_chain_exceeds_nests).

  Left out: the readiness state of the items (revents, pending_events,
  last_revents, oneshot), epoll_wait, the poll subscriptions, item data,
  the freeing of a closed instance, and allocation failures.
-/
import Uinxed.Lib.Digraph

set_option autoImplicit false

namespace Uinxed.Epoll

/-! ## Constants -/

def epollMaxFds : Nat := 1024
def epollMaxNests : Nat := 4
def processMaxFd : Nat := 1024
def epollCtlAdd : Nat := 1
def epollCtlDel : Nat := 2
def epollCtlMod : Nat := 3
def epollIn : Nat := 0x001

def enoent : Int := 2
def ebadf : Int := 9
def efault : Int := 14
def eexist : Int := 17
def einval : Int := 22
def eloop : Int := 40

/-! ## Instances, items, descriptors -/

/-- What a descriptor of the process names: an epoll instance, by id, or
another file. -/
inductive EpFile where
  | epoll (id : Nat)
  | other (id : Nat)
  deriving DecidableEq, Repr

/-- epoll_file_instance. -/
def EpFile.instance? : EpFile → Option Nat
  | .epoll id => some id
  | .other _ => none

/-- epoll_item_t: the fields registration reads and writes. -/
structure EpollItem where
  fd : Nat
  events : Nat
  file : EpFile
  active : Bool
  targetClosed : Bool
  deriving DecidableEq, Repr

/-- epoll_instance_t: the items, fd_count and max_fd. -/
structure EpollInstance where
  items : Nat → Option EpollItem
  fdCount : Int
  maxFd : Int

/-- An instance as epoll_node_create leaves it. -/
def EpollInstance.empty : EpollInstance := ⟨fun _ => none, 0, -1⟩

/-- The descriptors of the process and the instances. -/
structure EpollSystem where
  fds : Nat → Option EpFile
  insts : Nat → EpollInstance

/-- A process with the given descriptors, and every instance empty. -/
def EpollSystem.init (fds : Nat → Option EpFile) : EpollSystem := ⟨fds, fun _ => .empty⟩

/-- The registration graph: a → b when an active item of a watches b. -/
def EpollSystem.Edge (s : EpollSystem) (a b : Nat) : Prop :=
  ∃ fd item, (s.insts a).items fd = some item ∧ item.active = true ∧ item.file = .epoll b

/-! ## The item operations, under epi->lock -/

namespace EpollInstance

variable (epi : EpollInstance)

/-- epoll_item_find. -/
def find (fd : Nat) : Option EpollItem := if fd < epollMaxFds then epi.items fd else none

/-- epoll_item_add: none when fd is out of range or taken. -/
def itemAdd (fd : Nat) (file : EpFile) (events : Nat) : Option EpollInstance :=
  if epollMaxFds ≤ fd then none
  else if (epi.items fd).isSome then none
  else
    some ⟨fun k => if k = fd then some ⟨fd, events, file, true, false⟩ else epi.items k, epi.fdCount + 1,
      if (fd : Int) > epi.maxFd then fd else epi.maxFd⟩

/-- The loop of epoll_item_del that lowers max_fd from m past empty slots. -/
def scanDown (items : Nat → Option EpollItem) : Nat → Int
  | 0 => if (items 0).isSome then 0 else -1
  | m + 1 => if (items (m + 1)).isSome then (m + 1 : Nat) else scanDown items m

/-- epoll_item_del: the instance without the item, and the item, now inactive. -/
def itemDel (fd : Nat) : Option (EpollInstance × EpollItem) :=
  if epollMaxFds ≤ fd then none
  else
    match epi.items fd with
    | none => none
    | some item =>
      let items := fun k => if k = fd then none else epi.items k
      some (⟨items, epi.fdCount - 1, if (fd : Int) = epi.maxFd then scanDown items fd else epi.maxFd⟩,
        { item with active := false })

/-- epoll_item_mod. -/
def itemMod (fd : Nat) (events : Nat) : Option EpollInstance :=
  match epi.find fd with
  | none => none
  | some item => some { epi with items := fun k => if k = fd then some { item with events := events } else epi.items k }

end EpollInstance

namespace EpollSystem

variable (s : EpollSystem)

def setInst (id : Nat) (epi : EpollInstance) : EpollSystem := { s with insts := fun k => if k = id then epi else s.insts k }

/-- epoll_path_reaches(start, needle, depth), with remaining for
EPOLL_MAX_NESTS - depth: start is needle, or the walk is EPOLL_MAX_NESTS deep,
or an active item of start, up to max_fd, watches an instance that reaches
needle one level deeper. -/
def pathReachesFrom (needle : Nat) : Nat → Nat → Bool
  | 0, _ => true
  | r + 1, start =>
    start == needle ||
      (List.range ((s.insts start).maxFd + 1).toNat).any fun fd =>
        match (s.insts start).items fd with
        | some item => item.active && match item.file.instance? with
          | some child => pathReachesFrom needle r child
          | none => false
        | none => false

def epollPathReaches (start needle depth : Nat) : Bool := s.pathReachesFrom needle (epollMaxNests - depth) start

/-- epoll_resolve_fd: the instance an epoll descriptor names. -/
def resolve (epfd : Nat) : Option Nat :=
  if epfd < processMaxFd then (s.fds epfd).bind EpFile.instance? else none

/-- process_fd_get. -/
def fdGet (fd : Nat) : Option EpFile := if fd < processMaxFd then s.fds fd else none

end EpollSystem

/-! ## sys_epoll_ctl -/

/-- EPOLL_CTL_ADD under epi->lock: an item whose target was closed is deleted
first; event is none for a NULL pointer. -/
def ctlAdd (s : EpollSystem) (epi fd : Nat) (target : EpFile) (event : Option Nat) : EpollSystem × Int :=
  match event with
  | none => (s, -efault)
  | some ev =>
    let inst := match (s.insts epi).find fd with
      | some old => if old.targetClosed then ((s.insts epi).itemDel fd).elim (s.insts epi) Prod.fst else s.insts epi
      | none => s.insts epi
    match inst.itemAdd fd target ev with
    | none => (s.setInst epi inst, -eexist)
    | some inst' => (s.setInst epi inst', 0)

/-- EPOLL_CTL_DEL under epi->lock. -/
def ctlDel (s : EpollSystem) (epi fd : Nat) : EpollSystem × Int :=
  match (s.insts epi).itemDel fd with
  | none => (s, -enoent)
  | some (inst, _) => (s.setInst epi inst, 0)

/-- EPOLL_CTL_MOD under epi->lock. -/
def ctlMod (s : EpollSystem) (epi fd : Nat) (event : Option Nat) : EpollSystem × Int :=
  match event with
  | none => (s, -efault)
  | some ev =>
    match (s.insts epi).itemMod fd ev with
    | none => (s, -enoent)
    | some inst => (s.setInst epi inst, 0)

/-- sys_epoll_ctl. -/
def sysEpollCtl (s : EpollSystem) (epfd op fd : Nat) (event : Option Nat) : EpollSystem × Int :=
  if epfd = fd then (s, -einval)
  else
    match s.resolve epfd with
    | none => (s, -ebadf)
    | some epi =>
      if op = epollCtlAdd then
        match s.fdGet fd with
        | none => (s, -ebadf)
        | some target =>
          -- the topology checks under epoll_topology_lock
          match target.instance? with
          | some tepi =>
            if tepi = epi then (s, -einval)
            else if s.epollPathReaches tepi epi 0 then (s, -eloop)
            else ctlAdd s epi fd target event
          | none => ctlAdd s epi fd target event
      else if op = epollCtlDel then ctlDel s epi fd
      else if op = epollCtlMod then ctlMod s epi fd event
      else (s, -einval)

/-- epoll_target_close: the item is marked, and stays registered. -/
def targetClose (s : EpollSystem) (epi fd : Nat) : EpollSystem :=
  match (s.insts epi).items fd with
  | none => s
  | some item => s.setInst epi { s.insts epi with items := fun k => if k = fd then some { item with targetClosed := true } else (s.insts epi).items k }

/-- What changes the registrations: an epoll_ctl call, or the close of a
watched file. -/
inductive EpollEvent where
  | ctl (epfd op fd : Nat) (event : Option Nat)
  | targetClose (epi fd : Nat)
  deriving DecidableEq, Repr

def epollStep (s : EpollSystem) : EpollEvent → EpollSystem × List Int
  | .ctl epfd op fd event => ((sysEpollCtl s epfd op fd event).1, [(sysEpollCtl s epfd op fd event).2])
  | .targetClose epi fd => (targetClose s epi fd, [])

/-- A run of events, with what the calls returned. -/
def epollRun : EpollSystem → List EpollEvent → EpollSystem × List Int
  | s, [] => (s, [])
  | s, e :: es => ((epollRun (epollStep s e).1 es).1, (epollStep s e).2 ++ (epollRun (epollStep s e).1 es).2)

/-! ## A chain longer than EPOLL_MAX_NESTS -/

/-- Six epoll instances, each on the descriptor of its id.  Each ADD hangs a
leaf at the end of the chain, which the walk from that leaf cannot see, so
all five are accepted and instance 0 reaches instance 5 over five edges, one
more than EPOLL_MAX_NESTS: readiness of 5 is passed on five calls deep. -/
theorem epoll_ctl_chain_exceeds_nests :
    (epollRun (EpollSystem.init fun fd => if fd < 6 then some (.epoll fd) else none)
      [.ctl 0 epollCtlAdd 1 (some epollIn), .ctl 1 epollCtlAdd 2 (some epollIn), .ctl 2 epollCtlAdd 3 (some epollIn),
        .ctl 3 epollCtlAdd 4 (some epollIn), .ctl 4 epollCtlAdd 5 (some epollIn)]).2 = [0, 0, 0, 0, 0] ∧
    (∀ i < 5, (epollRun (EpollSystem.init fun fd => if fd < 6 then some (.epoll fd) else none)
      [.ctl 0 epollCtlAdd 1 (some epollIn), .ctl 1 epollCtlAdd 2 (some epollIn), .ctl 2 epollCtlAdd 3 (some epollIn),
        .ctl 3 epollCtlAdd 4 (some epollIn), .ctl 4 epollCtlAdd 5 (some epollIn)]).1.Edge i (i + 1)) ∧
    epollMaxNests < 5 := by
  refine ⟨by decide, fun i hi => ⟨i + 1, ⟨i + 1, epollIn, .epoll (i + 1), true, false⟩, ?_, rfl, rfl⟩, by decide⟩
  have hitems : ∀ i < 5, ((epollRun (EpollSystem.init fun fd => if fd < 6 then some (.epoll fd) else none)
      [.ctl 0 epollCtlAdd 1 (some epollIn), .ctl 1 epollCtlAdd 2 (some epollIn), .ctl 2 epollCtlAdd 3 (some epollIn),
        .ctl 3 epollCtlAdd 4 (some epollIn), .ctl 4 epollCtlAdd 5 (some epollIn)]).1.insts i).items (i + 1) =
      some ⟨i + 1, epollIn, .epoll (i + 1), true, false⟩ := by decide
  exact hitems i hi

end Uinxed.Epoll
