/-
  Ipc/PosixMq.lean --- POSIX message queues (mq_queue_create's attributes,
  mq_enqueue, mq_dequeue, and the queue side of sys_mq_timedsend,
  sys_mq_timedreceive, mq_vfs_write and mq_vfs_read, src/ipc/posix_mq.c).

  The chain from queue->head is the list of its nodes, each with its address
  (what queue->tail points to), prio and payload.  queue->tail, msg_count and
  attr.mq_curmsgs are fields of their own, so that "tail is the last node"
  and "the counts are the chain's length" are invariants (MqInv) and not
  definitions.

  mq_enqueue keeps a new message behind the head when its priority does not
  exceed the head's, and from the second node on puts it before the first
  node whose priority does not exceed its own: that scan is
  List.orderedInsert with the relation prioGe (mqScan_fst).  So the chain
  stays sorted by non-increasing priority, every call keeps MqInv
  (MqInv.mqRun), no message is lost or duplicated (mqRun_perm), and every
  receive returns a message of the greatest priority queued
  (mqCall_received_max).  The head test is strict and the scan test is not,
  so a message goes in front of every queued message of its own priority
  except the head (mq_enqueue_overtakes_equal_priority): three writes of
  priority 0 are read back first, third, second.  POSIX keeps the order of
  sending within a priority (fifoInsert).

  A call that would sleep is modelled as blocked: it leaves the queue as it
  is and its caller runs it again later.  The calls modelled never change
  unlinked, prio, the payload or the attributes, so running the call again
  is what the wait loop does.  Descriptors, timeouts, allocation and copy
  faults, mq_unlink and mq_notify are left out.
-/
import Mathlib.Data.List.Sort

set_option autoImplicit false

namespace Uinxed.PosixMq

/-! ## Constants -/

def mqMaxmsgDefault : Nat := 10
def mqMsgsizeDefault : Nat := 8192
def mqMaxmsgMax : Nat := 256
def mqMsgsizeMax : Nat := 65536
def mqPrioMax : Nat := 32768

def ebadf : Int := 9
def eagain : Int := 11
def einval : Int := 22
def emsgsize : Int := 90

/-! ## Queues -/

/-- mq_message_t: the node's address, prio and data[0..size). -/
structure MqMessage where
  addr : Nat
  prio : Nat
  data : List UInt8
  deriving DecidableEq, Repr

/-- The attributes the calls read; mq_flags is always 0. -/
structure MqAttr where
  maxmsg : Nat
  msgsize : Nat
  curmsgs : Nat
  deriving DecidableEq, Repr

/-- mq_queue_t: chain lists the nodes from head along next; tail is the
address queue->tail holds, none for NULL. -/
structure MqQueue where
  attr : MqAttr
  chain : List MqMessage
  tail : Option Nat
  msgCount : Nat
  unlinked : Bool
  deriving DecidableEq, Repr

/-- The clamp of mq_queue_create: a value out of (0, max] is the default. -/
def mqClamp (value : Int) (max default : Nat) : Nat :=
  if value ≤ 0 ∨ max < value then default else value.toNat

/-- mq_queue_create(name, attr): attr as (mq_maxmsg, mq_msgsize), none for NULL. -/
def mqQueueCreate (attr : Option (Int × Int)) : MqQueue :=
  let (maxmsg, msgsize) := attr.getD (mqMaxmsgDefault, mqMsgsizeDefault)
  { attr := { maxmsg := mqClamp maxmsg mqMaxmsgMax mqMaxmsgDefault,
              msgsize := mqClamp msgsize mqMsgsizeMax mqMsgsizeDefault, curmsgs := 0 },
    chain := [], tail := none, msgCount := 0, unlinked := false }

/-- The scan of mq_enqueue from cur = head->next: the chain from there with msg
put before the first node whose prio is not above msg's, and whether the loop
stopped at cur = NULL (then msg is the new tail). -/
def mqScan (msg : MqMessage) : List MqMessage → List MqMessage × Bool
  | [] => ([msg], true)
  | cur :: rest =>
    if cur.prio > msg.prio then Prod.map (cur :: ·) id (mqScan msg rest)
    else (msg :: cur :: rest, false)

/-- mq_enqueue(queue, msg). msg_count is a uint32_t that the callers keep
below mq_maxmsg. -/
def mqEnqueue (queue : MqQueue) (msg : MqMessage) : MqQueue :=
  let linked : MqQueue :=
    match queue.chain with
    | [] => { queue with chain := [msg], tail := some msg.addr }
    | head :: rest =>
      if msg.prio > head.prio then { queue with chain := msg :: head :: rest }
      else
        { queue with
          chain := head :: (mqScan msg rest).1
          tail := if (mqScan msg rest).2 then some msg.addr else queue.tail }
  { linked with msgCount := linked.msgCount + 1, attr := { linked.attr with curmsgs := linked.msgCount + 1 } }

/-- mq_dequeue(queue): the head node, none for NULL. -/
def mqDequeue (queue : MqQueue) : Option MqMessage × MqQueue :=
  match queue.chain with
  | [] => (none, queue)
  | msg :: rest =>
    (some msg,
      { queue with
        chain := rest
        tail := if rest = [] then none else queue.tail
        msgCount := queue.msgCount - 1
        attr := { queue.attr with curmsgs := queue.msgCount - 1 } })

/-! ## The calls -/

/-- What a call returns: sent with the node it queued, received with the node
it took and the bytes it copied out, mq_vfs_read's 0 without a message, an
error, or blocked (the caller sleeps and runs the call again). -/
inductive MqOutcome where
  | sent (msg : MqMessage)
  | received (msg : MqMessage) (copied : List UInt8)
  | noMessage
  | error (code : Int)
  | blocked
  deriving DecidableEq, Repr

inductive MqCall where
  | timedsend (addr prio : Nat) (data : List UInt8) (nonblock : Bool)
  | timedreceive (msgLen : Nat) (nonblock : Bool)
  | vfsWrite (addr : Nat) (data : List UInt8)
  | vfsRead (size : Nat)
  deriving DecidableEq, Repr

/-- sys_mq_timedsend after the descriptor lookup, with the node's address. -/
def sysMqTimedsend (queue : MqQueue) (addr prio : Nat) (data : List UInt8) (nonblock : Bool) :
    MqOutcome × MqQueue :=
  if prio > mqPrioMax then (.error (-einval), queue)
  else if data.length > queue.attr.msgsize then (.error (-emsgsize), queue)
  else if queue.unlinked then (.error (-ebadf), queue)
  else if queue.msgCount ≥ queue.attr.maxmsg then (if nonblock then .error (-eagain) else .blocked, queue)
  else (.sent ⟨addr, prio, data⟩, mqEnqueue queue ⟨addr, prio, data⟩)

/-- sys_mq_timedreceive after the descriptor lookup: it copies
min(msg_len, size) bytes and reports the node's prio. -/
def sysMqTimedreceive (queue : MqQueue) (msgLen : Nat) (nonblock : Bool) : MqOutcome × MqQueue :=
  if msgLen < queue.attr.msgsize then (.error (-emsgsize), queue)
  else if queue.msgCount = 0 then
    (if nonblock then .error (-eagain) else if queue.unlinked then .error (-ebadf) else .blocked, queue)
  else
    match mqDequeue queue with
    | (none, next) => (.error (-eagain), next)
    | (some msg, next) => (.received msg (msg.data.take msgLen), next)

/-- mq_vfs_write: priority 0; (size_t)-1 is error -1. -/
def mqVfsWrite (queue : MqQueue) (addr : Nat) (data : List UInt8) : MqOutcome × MqQueue :=
  if data.length > queue.attr.msgsize then (.error (-1), queue)
  else if queue.msgCount ≥ queue.attr.maxmsg then (if queue.unlinked then .error (-1) else .blocked, queue)
  else (.sent ⟨addr, 0, data⟩, mqEnqueue queue ⟨addr, 0, data⟩)

/-- mq_vfs_read: it copies min(size, msg->size) bytes. -/
def mqVfsRead (queue : MqQueue) (size : Nat) : MqOutcome × MqQueue :=
  if queue.msgCount = 0 then (if queue.unlinked then .noMessage else .blocked, queue)
  else
    match mqDequeue queue with
    | (none, next) => (.noMessage, next)
    | (some msg, next) => (.received msg (msg.data.take size), next)

def mqCall (queue : MqQueue) : MqCall → MqOutcome × MqQueue
  | .timedsend addr prio data nonblock => sysMqTimedsend queue addr prio data nonblock
  | .timedreceive msgLen nonblock => sysMqTimedreceive queue msgLen nonblock
  | .vfsWrite addr data => mqVfsWrite queue addr data
  | .vfsRead size => mqVfsRead queue size

/-- The calls run one after another, each under the queue's lock. -/
def mqRun (queue : MqQueue) : List MqCall → List MqOutcome × MqQueue
  | [] => ([], queue)
  | call :: calls =>
    let r := mqCall queue call
    let rs := mqRun r.2 calls
    (r.1 :: rs.1, rs.2)

/-! ## The order of the chain -/

/-- a may stand before b: its priority is not below b's. -/
def prioGe (a b : MqMessage) : Prop := b.prio ≤ a.prio

instance : DecidableRel prioGe := fun a b => inferInstanceAs (Decidable (b.prio ≤ a.prio))

instance : Std.Total prioGe := ⟨fun a b => Nat.le_total b.prio a.prio⟩

instance : IsTrans MqMessage prioGe := ⟨fun _ _ _ hab hbc => Nat.le_trans hbc hab⟩

/-- POSIX order: a new message goes behind every queued message of its own
priority or above. -/
def fifoInsert (msg : MqMessage) (chain : List MqMessage) : List MqMessage :=
  chain.orderedInsert (fun a b => a.prio > b.prio) msg

/-- The scan is the standard sorted insertion for prioGe. -/
theorem mqScan_fst (msg : MqMessage) : ∀ l : List MqMessage, (mqScan msg l).1 = l.orderedInsert prioGe msg
  | [] => rfl
  | cur :: rest => by
    unfold mqScan
    by_cases h : cur.prio > msg.prio
    · rw [if_pos h, List.orderedInsert_of_not_le prioGe rest (by unfold prioGe; omega), Prod.map_fst,
        mqScan_fst msg rest]
    · rw [if_neg h, List.orderedInsert_cons_of_le prioGe rest (by unfold prioGe; omega)]

/-- The last node after the scan: msg when the loop ran off the end. -/
theorem getLast?_mqScan (msg : MqMessage) :
    ∀ (l : List MqMessage) (head : MqMessage),
      (head :: (mqScan msg l).1).getLast? = if (mqScan msg l).2 then some msg else (head :: l).getLast?
  | [], _ => rfl
  | cur :: rest, head => by
    unfold mqScan
    by_cases h : cur.prio > msg.prio
    · simp only [if_pos h, Prod.map_fst, Prod.map_snd, id, List.getLast?_cons_cons]
      exact getLast?_mqScan msg rest cur
    · simp only [if_neg h, List.getLast?_cons_cons, Bool.false_eq_true, if_false]

/-! ## The invariant -/

/-- A queue between calls, as posix_mq.c's comments describe it: the
messages in priority order, highest first, the tail at the last node,
msg_count and mq_curmsgs counting the chain, and at most mq_maxmsg of them. -/
structure MqInv (queue : MqQueue) : Prop where
  sorted : queue.chain.Pairwise prioGe
  tail : queue.tail = queue.chain.getLast?.map MqMessage.addr
  count : queue.msgCount = queue.chain.length
  curmsgs : queue.attr.curmsgs = queue.msgCount
  bound : queue.msgCount ≤ queue.attr.maxmsg

theorem mqInv_mqQueueCreate (attr : Option (Int × Int)) : MqInv (mqQueueCreate attr) where
  sorted := List.Pairwise.nil
  tail := rfl
  count := rfl
  curmsgs := rfl
  bound := Nat.zero_le _

section Step

variable {queue : MqQueue}

/-- The chain mq_enqueue leaves: msg in front of a head of lower priority,
else sorted into the nodes behind the head. -/
theorem mqEnqueue_chain (msg : MqMessage) :
    (mqEnqueue queue msg).chain =
      match queue.chain with
      | [] => [msg]
      | head :: rest => if msg.prio > head.prio then msg :: head :: rest else head :: rest.orderedInsert prioGe msg := by
  unfold mqEnqueue
  split
  · rfl
  · split <;> simp only [mqScan_fst]

@[simp] theorem mqEnqueue_msgCount (msg : MqMessage) : (mqEnqueue queue msg).msgCount = queue.msgCount + 1 := by
  unfold mqEnqueue
  split
  · rfl
  · split <;> rfl

@[simp] theorem mqEnqueue_attr (msg : MqMessage) :
    (mqEnqueue queue msg).attr = { queue.attr with curmsgs := queue.msgCount + 1 } := by
  unfold mqEnqueue
  split
  · rfl
  · split <;> rfl

theorem mqEnqueue_perm (msg : MqMessage) : (mqEnqueue queue msg).chain.Perm (msg :: queue.chain) := by
  rw [mqEnqueue_chain]
  split
  · next h => rw [h]
  · next head rest h =>
    rw [h]
    split
    · exact List.Perm.refl _
    · exact ((List.perm_orderedInsert prioGe msg rest).cons head).trans (List.Perm.swap msg head rest)

theorem MqInv.mqEnqueue_sorted (hinv : MqInv queue) (msg : MqMessage) :
    (mqEnqueue queue msg).chain.Pairwise prioGe := by
  have hs := hinv.sorted
  rw [mqEnqueue_chain]
  split
  · exact List.pairwise_singleton prioGe msg
  · next head rest h =>
    rw [h, List.pairwise_cons] at hs
    split
    · next hgt =>
      -- msg outranks the head, and the head every node behind it
      refine List.pairwise_cons.mpr ⟨?_, List.pairwise_cons.mpr hs⟩
      intro b hb
      rcases List.mem_cons.mp hb with rfl | hb
      · exact Nat.le_of_lt hgt
      · exact Nat.le_trans (hs.1 b hb) (Nat.le_of_lt hgt)
    · next hle =>
      refine List.pairwise_cons.mpr ⟨?_, hs.2.orderedInsert msg rest⟩
      intro b hb
      rcases (List.mem_orderedInsert prioGe).mp hb with rfl | hb
      · exact Nat.le_of_not_lt hle
      · exact hs.1 b hb

theorem MqInv.mqEnqueue_tail (hinv : MqInv queue) (msg : MqMessage) :
    (mqEnqueue queue msg).tail = (mqEnqueue queue msg).chain.getLast?.map MqMessage.addr := by
  have ht := hinv.tail
  unfold mqEnqueue
  split
  · rfl
  · next head rest h =>
    rw [h] at ht
    split
    · simp only [List.getLast?_cons_cons, ht]
    · simp only [getLast?_mqScan, ht]
      split <;> rfl

theorem MqInv.mqEnqueue (hinv : MqInv queue) (msg : MqMessage) (hroom : queue.msgCount < queue.attr.maxmsg) :
    MqInv (mqEnqueue queue msg) where
  sorted := hinv.mqEnqueue_sorted msg
  tail := hinv.mqEnqueue_tail msg
  count := by rw [mqEnqueue_msgCount, (mqEnqueue_perm msg).length_eq, List.length_cons, hinv.count]
  curmsgs := by simp
  bound := by
    rw [mqEnqueue_msgCount, mqEnqueue_attr]
    exact hroom

theorem MqInv.mqDequeue (hinv : MqInv queue) : MqInv (mqDequeue queue).2 := by
  unfold PosixMq.mqDequeue
  split
  · exact hinv
  · next msg rest h =>
    have hs := hinv.sorted
    have ht := hinv.tail
    have hc := hinv.count
    have hb := hinv.bound
    rw [h] at hs ht hc
    refine ⟨(List.pairwise_cons.mp hs).2, ?_, ?_, rfl, ?_⟩
    · -- the tail stays unless the head was the only node
      dsimp only
      split
      · next hnil => rw [hnil]; rfl
      · next hne => rw [ht, List.getLast?_cons, List.getLast?_eq_some_getLast hne]; rfl
    · dsimp only
      rw [hc, List.length_cons, Nat.add_sub_cancel]
    · dsimp only
      omega

/-- mq_dequeue on an empty chain changes nothing. -/
theorem mqDequeue_of_none {next : MqQueue} (h : mqDequeue queue = (none, next)) : next = queue := by
  unfold PosixMq.mqDequeue at h
  split at h
  · exact (Prod.mk.inj h).2.symm
  · simp at h

/-- The node mq_dequeue returns was the head, and the rest is the new chain. -/
theorem mqDequeue_eq_some {msg : MqMessage} {next : MqQueue} (h : mqDequeue queue = (some msg, next)) :
    queue.chain = msg :: next.chain := by
  unfold PosixMq.mqDequeue at h
  split at h
  · simp at h
  · next head rest hchain =>
    obtain ⟨hm, rfl⟩ := Prod.mk.inj h
    rw [hchain, Option.some.inj hm]

end Step

/-! ## What a call does -/

/-- The effect of a call on the queue, read off its outcome: a sent node was
queued while there was room, a received node was the head, and any other
outcome leaves the queue as it was. -/
def MqEffect (queue : MqQueue) : MqOutcome → MqQueue → Prop
  | .sent msg, next => next = mqEnqueue queue msg ∧ queue.msgCount < queue.attr.maxmsg
  | .received msg _, next => mqDequeue queue = (some msg, next)
  | _, next => next = queue

/-- The two receiving calls end in the same match on mq_dequeue. -/
theorem mqEffect_receive (queue : MqQueue) (empty : MqOutcome) (copy : MqMessage → List UInt8)
    (hempty : ∀ next, MqEffect queue empty next ↔ next = queue) :
    MqEffect queue
      (match mqDequeue queue with
        | (none, next) => (empty, next)
        | (some msg, next) => (MqOutcome.received msg (copy msg), next)).1
      (match mqDequeue queue with
        | (none, next) => (empty, next)
        | (some msg, next) => (MqOutcome.received msg (copy msg), next)).2 := by
  rcases hd : mqDequeue queue with ⟨_ | msg, next⟩
  · exact (hempty next).mpr (mqDequeue_of_none hd)
  · exact hd

theorem mqCall_effect (queue : MqQueue) (call : MqCall) :
    MqEffect queue (mqCall queue call).1 (mqCall queue call).2 := by
  cases call with
  | timedsend addr prio data nonblock =>
    show MqEffect queue (sysMqTimedsend queue addr prio data nonblock).1 (sysMqTimedsend queue addr prio data nonblock).2
    unfold sysMqTimedsend
    split_ifs with hprio hsize hunlinked hfull hnonblock
    · exact rfl
    · exact rfl
    · exact rfl
    · exact rfl
    · exact rfl
    · exact ⟨rfl, Nat.lt_of_not_ge hfull⟩
  | timedreceive msgLen nonblock =>
    show MqEffect queue (sysMqTimedreceive queue msgLen nonblock).1 (sysMqTimedreceive queue msgLen nonblock).2
    unfold sysMqTimedreceive
    split_ifs
    · exact rfl
    · exact rfl
    · exact rfl
    · exact rfl
    · exact mqEffect_receive queue _ _ fun _ => Iff.rfl
  | vfsWrite addr data =>
    show MqEffect queue (mqVfsWrite queue addr data).1 (mqVfsWrite queue addr data).2
    unfold mqVfsWrite
    split_ifs with hsize hfull hunlinked
    · exact rfl
    · exact rfl
    · exact rfl
    · exact ⟨rfl, Nat.lt_of_not_ge hfull⟩
  | vfsRead size =>
    show MqEffect queue (mqVfsRead queue size).1 (mqVfsRead queue size).2
    unfold mqVfsRead
    split_ifs
    · exact rfl
    · exact rfl
    · exact mqEffect_receive queue _ _ fun _ => Iff.rfl

theorem MqInv.mqEffect {queue next : MqQueue} {outcome : MqOutcome} (hinv : MqInv queue)
    (h : MqEffect queue outcome next) : MqInv next := by
  cases outcome with
  | sent msg =>
    obtain ⟨rfl, hroom⟩ := h
    exact hinv.mqEnqueue msg hroom
  | received msg copied =>
    have hnext : next = (PosixMq.mqDequeue queue).2 := by
      rw [show PosixMq.mqDequeue queue = (some msg, next) from h]
    rw [hnext]
    exact hinv.mqDequeue
  | noMessage | error _ | blocked =>
    rw [show next = queue from h]
    exact hinv

/-- Every call keeps the invariant. -/
theorem MqInv.mqCall {queue : MqQueue} (hinv : MqInv queue) (call : MqCall) : MqInv (mqCall queue call).2 :=
  hinv.mqEffect (mqCall_effect queue call)

/-- Along any run from a queue with the invariant, every queue has it. -/
theorem MqInv.mqRun {queue : MqQueue} (hinv : MqInv queue) : ∀ calls : List MqCall, MqInv (mqRun queue calls).2
  | [] => hinv
  | call :: calls => (hinv.mqCall call).mqRun calls

/-- A send, a write and a receive on a new queue keep the invariant. -/
theorem mqInv_mqRun_send_write_receive :
    MqInv (mqQueueCreate none) ∧
      MqInv (mqRun (mqQueueCreate none) [.timedsend 1 5 [7] false, .vfsWrite 2 [8], .timedreceive 8192 false]).2 :=
  ⟨mqInv_mqQueueCreate none, MqInv.mqRun (mqInv_mqQueueCreate none) _⟩

/-! ## Receives and the order of sending -/

/-- A receive takes a node of the greatest priority queued: the head of the
sorted chain. -/
theorem mqCall_received_max {queue : MqQueue} (hinv : MqInv queue) {call : MqCall} {msg : MqMessage}
    {copied : List UInt8} (h : (mqCall queue call).1 = .received msg copied) :
    msg ∈ queue.chain ∧ ∀ other ∈ queue.chain, other.prio ≤ msg.prio := by
  have he := mqCall_effect queue call
  rw [h] at he
  have hchain := mqDequeue_eq_some (show mqDequeue queue = (some msg, (mqCall queue call).2) from he)
  have hs := hinv.sorted
  rw [hchain, List.pairwise_cons] at hs
  rw [hchain]
  refine ⟨List.mem_cons_self, fun other hother => ?_⟩
  rcases List.mem_cons.mp hother with rfl | hother
  · exact Nat.le_refl _
  · exact hs.1 other hother

/-- After a write of priority 0 and a send of priority 5, a read returns the
message of priority 5. -/
theorem mqCall_received_max_after_two_sends :
    ∃ queue, queue = (mqCall (mqCall (mqQueueCreate none) (.vfsWrite 1 [1])).2 (.timedsend 2 5 [2] false)).2 ∧
      MqInv queue ∧ (mqCall queue (.vfsRead 8192)).1 = .received ⟨2, 5, [2]⟩ [2] ∧
      (⟨2, 5, [2]⟩ ∈ queue.chain ∧ ∀ other ∈ queue.chain, other.prio ≤ (⟨2, 5, [2]⟩ : MqMessage).prio) := by
  have hinv := ((mqInv_mqQueueCreate none).mqCall (.vfsWrite 1 [1])).mqCall (.timedsend 2 5 [2] false)
  have hread : (mqCall (mqCall (mqCall (mqQueueCreate none) (.vfsWrite 1 [1])).2 (.timedsend 2 5 [2] false)).2
      (.vfsRead 8192)).1 = .received ⟨2, 5, [2]⟩ [2] := by
    decide
  exact ⟨_, rfl, hinv, hread, mqCall_received_max hinv hread⟩

/-- The node a call queues. -/
def MqOutcome.sentList : MqOutcome → List MqMessage
  | .sent msg => [msg]
  | _ => []

/-- The node a call takes. -/
def MqOutcome.receivedList : MqOutcome → List MqMessage
  | .received msg _ => [msg]
  | _ => []

theorem MqEffect.perm {queue next : MqQueue} {outcome : MqOutcome} (h : MqEffect queue outcome next) :
    (outcome.sentList ++ queue.chain).Perm (outcome.receivedList ++ next.chain) := by
  cases outcome with
  | sent msg =>
    obtain ⟨rfl, -⟩ := h
    exact (mqEnqueue_perm msg).symm
  | received msg copied =>
    rw [mqDequeue_eq_some (show mqDequeue queue = (some msg, next) from h)]
    exact List.Perm.refl _
  | noMessage | error _ | blocked =>
    rw [show next = queue from h]
    exact List.Perm.refl _

/-- No message is lost or duplicated: over any run, the nodes sent and the
nodes queued at the start are, up to order, the nodes received and the nodes
queued at the end. -/
theorem mqRun_perm (queue : MqQueue) : ∀ calls : List MqCall,
    ((mqRun queue calls).1.flatMap MqOutcome.sentList ++ queue.chain).Perm
      ((mqRun queue calls).1.flatMap MqOutcome.receivedList ++ (mqRun queue calls).2.chain)
  | [] => List.Perm.refl _
  | call :: calls => by
    have hstep := (mqCall_effect queue call).perm
    have hrest := mqRun_perm (mqCall queue call).2 calls
    simp only [mqRun, List.flatMap_cons, List.append_assoc]
    calc List.Perm _ ((mqRun (mqCall queue call).2 calls).1.flatMap MqOutcome.sentList ++
            ((mqCall queue call).1.sentList ++ queue.chain)) := List.perm_append_comm_assoc _ _ _
      List.Perm _ ((mqRun (mqCall queue call).2 calls).1.flatMap MqOutcome.sentList ++
            ((mqCall queue call).1.receivedList ++ (mqCall queue call).2.chain)) := hstep.append_left _
      List.Perm _ ((mqCall queue call).1.receivedList ++
            ((mqRun (mqCall queue call).2 calls).1.flatMap MqOutcome.sentList ++ (mqCall queue call).2.chain)) :=
          List.perm_append_comm_assoc _ _ _
      List.Perm _ _ := hrest.append_left _

/-- A message whose priority does not exceed the head's goes in front of
every queued message of its own priority behind the head, although those
were sent before it. -/
theorem mq_enqueue_overtakes_equal_priority {queue : MqQueue} {head old : MqMessage} {rest : List MqMessage}
    (msg : MqMessage) (hchain : queue.chain = head :: rest) (hhead : msg.prio ≤ head.prio) (hold : old ∈ rest)
    (hprio : old.prio = msg.prio) :
    ∃ pre post, (mqEnqueue queue msg).chain = head :: (pre ++ msg :: post) ∧ old ∈ post := by
  rw [mqEnqueue_chain, hchain]
  dsimp only
  rw [if_neg (Nat.not_lt.mpr hhead), List.orderedInsert_eq_take_drop]
  refine ⟨_, _, rfl, ?_⟩
  -- old does not rank below msg, so the scan never passes it
  have hstop : ¬(decide ¬prioGe msg old) = true := by
    simp only [decide_eq_true_eq, not_not]
    exact Nat.le_of_eq hprio
  have hsplit := List.takeWhile_append_dropWhile (p := fun b => decide ¬prioGe msg b) (l := rest)
  rw [← hsplit, List.mem_append] at hold
  rcases hold with htake | hdrop
  · exact absurd (List.all_eq_true.mp List.all_takeWhile old htake) hstop
  · exact hdrop

/-- Three writes of priority 0 to a new queue: the third goes between the
first and the second, and the reads return them first, third, second, where
POSIX order keeps them as sent. -/
theorem mq_enqueue_overtakes_at_third_write :
    (mqRun (mqQueueCreate none) [.vfsWrite 1 [1], .vfsWrite 2 [2]]).2.chain = [⟨1, 0, [1]⟩, ⟨2, 0, [2]⟩] ∧
      (∃ pre post, (mqEnqueue (mqRun (mqQueueCreate none) [.vfsWrite 1 [1], .vfsWrite 2 [2]]).2 ⟨3, 0, [3]⟩).chain =
        ⟨1, 0, [1]⟩ :: (pre ++ ⟨3, 0, [3]⟩ :: post) ∧ ⟨2, 0, [2]⟩ ∈ post) ∧
      (mqRun (mqQueueCreate none)
          [.vfsWrite 1 [1], .vfsWrite 2 [2], .vfsWrite 3 [3], .vfsRead 8192, .vfsRead 8192, .vfsRead 8192]).1 =
        [.sent ⟨1, 0, [1]⟩, .sent ⟨2, 0, [2]⟩, .sent ⟨3, 0, [3]⟩,
          .received ⟨1, 0, [1]⟩ [1], .received ⟨3, 0, [3]⟩ [3], .received ⟨2, 0, [2]⟩ [2]] ∧
      fifoInsert ⟨3, 0, [3]⟩ [⟨1, 0, [1]⟩, ⟨2, 0, [2]⟩] = [⟨1, 0, [1]⟩, ⟨2, 0, [2]⟩, ⟨3, 0, [3]⟩] := by
  have hchain : (mqRun (mqQueueCreate none) [.vfsWrite 1 [1], .vfsWrite 2 [2]]).2.chain =
      [⟨1, 0, [1]⟩, ⟨2, 0, [2]⟩] := by decide
  refine ⟨hchain, mq_enqueue_overtakes_equal_priority ⟨3, 0, [3]⟩ hchain (Nat.le_refl 0) (List.mem_singleton_self _) rfl,
    by decide, by decide⟩

end Uinxed.PosixMq
