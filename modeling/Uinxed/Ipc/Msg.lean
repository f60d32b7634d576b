/-
  Ipc/Msg.lean --- System V message queues (msg_msg_t, msg_queue_t, and the
  queue side of sys_msgsnd and sys_msgrcv, src/ipc/sysv_ipc.c).

  The chain from q->head is the list of its nodes, each with its address,
  type and payload; q->tail, qnum and cbytes are fields of their own.
  sys_msgsnd links a node behind the tail; sys_msgrcv scans the chain with a
  trailing link (msgScan: the nodes before the match, the match, the nodes
  after it) and unlinks the match, moving the tail back to the previous node
  when the match was the tail.  The tail test compares addresses, so the
  invariant (MsgInv) keeps the addresses distinct: malloc is modelled by
  heapNext, the next address it hands out.  Every call keeps MsgInv
  (MsgInv.msgRun): qnum is the chain's length, cbytes the sum of the sizes
  and at most qbytes, tail the last node.

  msgrcvSelect states the message msgrcv(2) selects.  sys_msgrcv differs
  from it in three ways (sys_msgrcv_selection_and_e2big): for msgtyp > 0 it
  never reads MSG_EXCEPT; for msgtyp < 0 it takes the first message of type
  at most |msgtyp|, not the first of the lowest such type; and it unlinks the
  message before it compares its size with msgsz, so -E2BIG leaves the queue
  without the message, which is freed.

  A call that would sleep is modelled as blocked: it leaves the queue as it
  is and its caller runs it again.  Identifiers, permissions, times, pids,
  allocation and copy faults, and msgctl are left out.
-/
import Mathlib.Algebra.GroupWithZero.Nat
import Mathlib.Data.List.MinMax
import Mathlib.Algebra.Group.Int.Defs

set_option autoImplicit false

namespace Uinxed.Msg

/-! ## Constants -/

def ipcNowait : Nat := 0x0800
def msgNoerror : Nat := 0x0100
def msgExcept : Nat := 0x0200
def msgmax : Nat := 8192
def msgmnb : Nat := 16384

def enomsg : Int := 42
def eidrm : Int := 43
def e2big : Int := 7
def eagain : Int := 11
def einval : Int := 22

/-- -x in int64_t, which wraps at INT64_MIN. -/
def int64Neg (x : Int) : Int := if x = -2 ^ 63 then x else -x

/-! ## Queues -/

/-- msg_msg_t: the node's address, type and data[0..size). -/
structure MsgMsg where
  addr : Nat
  type : Int
  data : List UInt8
  deriving DecidableEq, Repr

/-- msg_queue_t: chain lists the nodes from head along next, tail is the
address q->tail holds (none for NULL); heapNext is the allocator. -/
structure MsgQueue where
  chain : List MsgMsg
  tail : Option Nat
  qnum : Nat
  cbytes : Nat
  qbytes : Nat
  deleted : Bool
  heapNext : Nat
  deriving DecidableEq, Repr

/-- The sum of the sizes of some nodes. -/
def bytesOf (chain : List MsgMsg) : Nat := (chain.map fun msg => msg.data.length).sum

/-- A new queue of msgget: empty, with qbytes = MSGMNB. -/
def msgQueueNew : MsgQueue :=
  { chain := [], tail := none, qnum := 0, cbytes := 0, qbytes := msgmnb, deleted := false, heapNext := 1 }

/-- The search loop of sys_msgrcv from cur = q->head: the nodes passed (the
trailing link is the last of them, prev_node), the first node that matches,
and the nodes after it; none when cur reaches NULL. -/
def msgScan (pick : MsgMsg → Bool) : List MsgMsg → Option (List MsgMsg × MsgMsg × List MsgMsg)
  | [] => none
  | cur :: rest =>
    if pick cur then some ([], cur, rest)
    else (msgScan pick rest).map fun (pre, msg, post) => (cur :: pre, msg, post)

/-- The search of sys_msgrcv for msgtyp and msgflg. -/
def msgSearch (chain : List MsgMsg) (msgtyp : Int) (msgflg : Nat) : Option (List MsgMsg × MsgMsg × List MsgMsg) :=
  if msgtyp = 0 then
    match chain with
    | [] => none
    | head :: rest => some ([], head, rest)
  else if msgtyp > 0 then msgScan (fun cur => cur.type == msgtyp) chain
  else msgScan (fun cur => decide (cur.type ≤ int64Neg msgtyp) != (msgflg &&& msgExcept != 0)) chain

/-- What a call returns: sent with the node it linked, received with the
node it took and the bytes it copied out, an error, or blocked. -/
inductive MsgOutcome where
  | sent (msg : MsgMsg)
  | received (msg : MsgMsg) (copied : List UInt8)
  | error (code : Int)
  | blocked
  deriving DecidableEq, Repr

/-- The insertion at the tail of sys_msgsnd and its counters; msg comes from
malloc, at heapNext. -/
def msgLink (q : MsgQueue) (msg : MsgMsg) : MsgQueue :=
  { q with
    chain := if q.tail = none then [msg] else q.chain ++ [msg]
    tail := some msg.addr
    qnum := q.qnum + 1
    cbytes := q.cbytes + msg.data.length
    heapNext := q.heapNext + 1 }

/-- sys_msgsnd after the identifier lookup: mtype is the long read from the
user buffer and data the msgsz bytes after it. -/
def sysMsgsnd (q : MsgQueue) (mtype : Int) (data : List UInt8) (msgflg : Nat) : MsgOutcome × MsgQueue :=
  if data.length > msgmax then (.error (-einval), q)
  else if mtype ≤ 0 then (.error (-einval), q)
  else if q.deleted then (.error (-eidrm), q)
  else if q.cbytes + data.length > q.qbytes ∨ q.qnum ≥ msgmnb then
    (if msgflg &&& ipcNowait ≠ 0 then .error (-eagain) else .blocked, q)
  else (.sent ⟨q.heapNext, mtype, data⟩, msgLink q ⟨q.heapNext, mtype, data⟩)

/-- The unlink of sys_msgrcv: *prev_link = msg->next, and the tail moves to
prev_node when msg was the tail. -/
def msgUnlink (q : MsgQueue) (pre : List MsgMsg) (msg : MsgMsg) (post : List MsgMsg) : MsgQueue :=
  { q with
    chain := pre ++ post
    tail := if q.tail = some msg.addr then pre.getLast?.map MsgMsg.addr else q.tail
    qnum := q.qnum - 1
    cbytes := q.cbytes - msg.data.length }

/-- sys_msgrcv after the identifier lookup. -/
def sysMsgrcv (q : MsgQueue) (msgsz : Nat) (msgtyp : Int) (msgflg : Nat) : MsgOutcome × MsgQueue :=
  if msgsz = 0 then (.error (-einval), q)
  else if q.deleted then (.error (-eidrm), q)
  else
    match msgSearch q.chain msgtyp msgflg with
    | none => (if msgflg &&& ipcNowait ≠ 0 then .error (-enomsg) else .blocked, q)
    | some (pre, msg, post) =>
      -- the message is unlinked before its size is checked
      if msg.data.length > msgsz then
        if msgflg &&& msgNoerror ≠ 0 then (.received msg (msg.data.take msgsz), msgUnlink q pre msg post)
        else (.error (-e2big), msgUnlink q pre msg post)
      else (.received msg msg.data, msgUnlink q pre msg post)

inductive MsgCall where
  | msgsnd (mtype : Int) (data : List UInt8) (msgflg : Nat)
  | msgrcv (msgsz : Nat) (msgtyp : Int) (msgflg : Nat)
  deriving DecidableEq, Repr

def msgCall (q : MsgQueue) : MsgCall → MsgOutcome × MsgQueue
  | .msgsnd mtype data msgflg => sysMsgsnd q mtype data msgflg
  | .msgrcv msgsz msgtyp msgflg => sysMsgrcv q msgsz msgtyp msgflg

def msgRun (q : MsgQueue) : List MsgCall → List MsgOutcome × MsgQueue
  | [] => ([], q)
  | call :: calls =>
    let r := msgCall q call
    let rs := msgRun r.2 calls
    (r.1 :: rs.1, rs.2)

/-! ## What msgrcv(2) selects -/

/-- The message msgrcv(2) selects: the head for msgtyp = 0; for msgtyp > 0
the first of type msgtyp, or with MSG_EXCEPT the first of another type; for
msgtyp < 0 the first of the lowest type at most |msgtyp|. -/
def msgrcvSelect (chain : List MsgMsg) (msgtyp : Int) (msgflg : Nat) : Option MsgMsg :=
  if msgtyp = 0 then chain.head?
  else if msgtyp > 0 then
    if msgflg &&& msgExcept ≠ 0 then chain.find? (fun msg => msg.type != msgtyp)
    else chain.find? (fun msg => msg.type == msgtyp)
  else
    match ((chain.filter fun msg => decide (msg.type ≤ -msgtyp)).map MsgMsg.type).min? with
    | none => none
    | some lowest => chain.find? (fun msg => msg.type == lowest)

/-! ## The search -/

section Scan

variable {pick : MsgMsg → Bool}

theorem msgScan_eq_some {l pre post : List MsgMsg} {msg : MsgMsg} (h : msgScan pick l = some (pre, msg, post)) :
    l = pre ++ msg :: post ∧ pick msg = true ∧ ∀ other ∈ pre, pick other = false := by
  induction l generalizing pre with
  | nil => simp [msgScan] at h
  | cons cur rest ih =>
    unfold msgScan at h
    by_cases hc : pick cur = true
    · rw [if_pos hc] at h
      obtain ⟨rfl, rfl, rfl⟩ := h
      exact ⟨rfl, hc, fun _ h => absurd h List.not_mem_nil⟩
    · rw [if_neg hc] at h
      obtain ⟨⟨pre', msg', post'⟩, hrest, hmap⟩ := Option.map_eq_some_iff.mp h
      obtain ⟨rfl, rfl, rfl⟩ := hmap
      obtain ⟨hl, hm, hpre⟩ := ih hrest
      refine ⟨by rw [hl]; rfl, hm, fun other hother => ?_⟩
      rcases List.mem_cons.mp hother with rfl | hother
      · simpa using hc
      · exact hpre other hother

/-- The scan finds the first node that matches. -/
theorem msgScan_map (l : List MsgMsg) : (msgScan pick l).map (fun r => r.2.1) = l.find? pick := by
  induction l with
  | nil => rfl
  | cons cur rest ih =>
    unfold msgScan
    by_cases hc : pick cur = true
    · rw [if_pos hc, List.find?_cons_of_pos hc]
      rfl
    · rw [if_neg hc, List.find?_cons_of_neg hc, Option.map_map, ← ih]
      rfl

theorem msgSearch_eq_some {chain pre post : List MsgMsg} {msg : MsgMsg} {msgtyp : Int} {msgflg : Nat}
    (h : msgSearch chain msgtyp msgflg = some (pre, msg, post)) : chain = pre ++ msg :: post := by
  unfold msgSearch at h
  split at h
  · split at h
    · simp at h
    · next head rest =>
      obtain ⟨rfl, rfl, rfl⟩ := Option.some.inj h
      rfl
  · split at h
    · exact (msgScan_eq_some h).1
    · exact (msgScan_eq_some h).1

end Scan

/-! ## The invariant -/

/-- What sys_msgsnd and sys_msgrcv keep of a queue. -/
structure MsgInv (q : MsgQueue) : Prop where
  tail : q.tail = q.chain.getLast?.map MsgMsg.addr
  qnum : q.qnum = q.chain.length
  cbytes : q.cbytes = bytesOf q.chain
  room : q.cbytes ≤ q.qbytes
  nodup : (q.chain.map MsgMsg.addr).Nodup
  fresh : ∀ msg ∈ q.chain, msg.addr < q.heapNext
  typed : ∀ msg ∈ q.chain, 0 < msg.type

theorem msgInv_msgQueueNew : MsgInv msgQueueNew where
  tail := rfl
  qnum := rfl
  cbytes := rfl
  room := Nat.zero_le _
  nodup := List.nodup_nil
  fresh := fun _ h => absurd h List.not_mem_nil
  typed := fun _ h => absurd h List.not_mem_nil

@[simp] theorem bytesOf_append (l l' : List MsgMsg) : bytesOf (l ++ l') = bytesOf l + bytesOf l' := by
  simp [bytesOf]

@[simp] theorem bytesOf_cons (msg : MsgMsg) (l : List MsgMsg) : bytesOf (msg :: l) = msg.data.length + bytesOf l := by
  simp [bytesOf]

section Step

variable {q : MsgQueue}

/-- Linking a node at the tail: under the invariant the chain grows at its end. -/
theorem MsgInv.msgLink_chain (hinv : MsgInv q) (msg : MsgMsg) : (msgLink q msg).chain = q.chain ++ [msg] := by
  show (if q.tail = none then [msg] else q.chain ++ [msg]) = q.chain ++ [msg]
  split
  · next hnone =>
    rw [hinv.tail, Option.map_eq_none_iff, List.getLast?_eq_none_iff] at hnone
    rw [hnone]
    rfl
  · rfl

theorem MsgInv.msgLink (hinv : MsgInv q) {msg : MsgMsg} (haddr : msg.addr = q.heapNext) (htype : 0 < msg.type)
    (hroom : q.cbytes + msg.data.length ≤ q.qbytes) : MsgInv (msgLink q msg) := by
  have hchain := hinv.msgLink_chain msg
  refine ⟨?_, ?_, ?_, hroom, ?_, ?_, ?_⟩
  · rw [hchain]
    simp [Msg.msgLink]
  · rw [hchain]
    simp [Msg.msgLink, hinv.qnum]
  · rw [hchain]
    simp [Msg.msgLink, hinv.cbytes, bytesOf]
  · -- the new address is above every address in use
    rw [hchain, List.map_append, List.nodup_append]
    refine ⟨hinv.nodup, List.nodup_cons.mpr ⟨List.not_mem_nil, List.nodup_nil⟩, ?_⟩
    intro a ha b hb hab
    obtain ⟨m, hm, rfl⟩ := List.mem_map.mp ha
    rw [List.mem_singleton.mp hb, haddr] at hab
    exact absurd hab (Nat.ne_of_lt (hinv.fresh m hm))
  · intro m hm
    rw [hchain] at hm
    show m.addr < q.heapNext + 1
    rcases List.mem_append.mp hm with hm | hm
    · exact Nat.lt_succ_of_lt (hinv.fresh m hm)
    · rw [List.mem_singleton.mp hm, haddr]
      exact Nat.lt_succ_self _
  · intro m hm
    rw [hchain] at hm
    rcases List.mem_append.mp hm with hm | hm
    · exact hinv.typed m hm
    · rw [List.mem_singleton.mp hm]
      exact htype

/-- The tail test of the unlink: with distinct addresses, msg is the tail
exactly when nothing follows it. -/
theorem MsgInv.tail_eq_iff (hinv : MsgInv q) {pre post : List MsgMsg} {msg : MsgMsg}
    (hchain : q.chain = pre ++ msg :: post) : q.tail = some msg.addr ↔ post = [] := by
  rw [hinv.tail, hchain]
  constructor
  · intro h
    cases post using List.reverseRecOn with
    | nil => rfl
    | append_singleton init last _ =>
      -- the last node has msg's address, and addresses are distinct
      have hlast : last.addr = msg.addr := by
        rw [← List.cons_append, ← List.append_assoc, List.getLast?_append_of_ne_nil _ (by simp)] at h
        simpa using h
      have hnd := hinv.nodup
      rw [hchain, List.map_append, List.map_cons, List.map_append] at hnd
      have hnd' := (List.nodup_append.mp hnd).2.1
      rw [List.map_singleton, List.nodup_cons, List.mem_append, not_or] at hnd'
      exact absurd (List.mem_singleton.mpr hlast.symm) hnd'.1.2
  · rintro rfl
    simp

theorem MsgInv.msgUnlink (hinv : MsgInv q) {pre post : List MsgMsg} {msg : MsgMsg}
    (hchain : q.chain = pre ++ msg :: post) : MsgInv (msgUnlink q pre msg post) := by
  have hsplit : ∀ m, m ∈ pre ++ post → m ∈ q.chain := by
    intro m hm
    rw [hchain]
    rcases List.mem_append.mp hm with hm | hm
    · exact List.mem_append_left _ hm
    · exact List.mem_append_right _ (List.mem_cons_of_mem _ hm)
  have hbytes : q.cbytes = bytesOf pre + msg.data.length + bytesOf post := by
    rw [hinv.cbytes, hchain, bytesOf_append, bytesOf_cons, Nat.add_assoc]
  refine ⟨?_, ?_, ?_, ?_, ?_, fun m hm => hinv.fresh m (hsplit m hm), fun m hm => hinv.typed m (hsplit m hm)⟩
  · -- the tail moves back to prev_node exactly when msg was the tail
    unfold Msg.msgUnlink
    dsimp only
    by_cases hpost : post = []
    · rw [if_pos ((hinv.tail_eq_iff hchain).mpr hpost), hpost, List.append_nil]
    · rw [if_neg (mt (hinv.tail_eq_iff hchain).mp hpost), hinv.tail, hchain,
        List.getLast?_append_of_ne_nil _ hpost, List.getLast?_append_of_ne_nil _ (by simp),
        List.getLast?_cons, List.getLast?_eq_some_getLast hpost]
      rfl
  · show q.qnum - 1 = (pre ++ post).length
    rw [hinv.qnum, hchain, List.length_append, List.length_append, List.length_cons]
    omega
  · show q.cbytes - msg.data.length = bytesOf (pre ++ post)
    rw [hbytes, bytesOf_append]
    omega
  · show q.cbytes - msg.data.length ≤ q.qbytes
    exact Nat.le_trans (Nat.sub_le _ _) hinv.room
  · have hnd := hinv.nodup
    rw [hchain, List.map_append, List.map_cons] at hnd
    show ((pre ++ post).map MsgMsg.addr).Nodup
    rw [List.map_append]
    exact (List.perm_middle.nodup_iff.mp hnd).of_cons

end Step

/-! ## What a call does -/

/-- The effect of a call on the queue, read off its outcome.  Only -E2BIG
among the errors changes the queue: the message is already unlinked. -/
def MsgEffect (q : MsgQueue) : MsgOutcome → MsgQueue → Prop
  | .sent msg, next =>
    msg.addr = q.heapNext ∧ 0 < msg.type ∧ q.cbytes + msg.data.length ≤ q.qbytes ∧ next = msgLink q msg
  | .received msg _, next => ∃ pre post, q.chain = pre ++ msg :: post ∧ next = msgUnlink q pre msg post
  | .error code, next =>
    next = q ∨ code = -e2big ∧ ∃ pre msg post, q.chain = pre ++ msg :: post ∧ next = msgUnlink q pre msg post
  | .blocked, next => next = q

theorem sysMsgsnd_effect (q : MsgQueue) (mtype : Int) (data : List UInt8) (msgflg : Nat) :
    MsgEffect q (sysMsgsnd q mtype data msgflg).1 (sysMsgsnd q mtype data msgflg).2 := by
  unfold sysMsgsnd
  split_ifs with hlen htype hdel hfull hnowait
  · exact Or.inl rfl
  · exact Or.inl rfl
  · exact Or.inl rfl
  · exact Or.inl rfl
  · exact rfl
  · refine ⟨rfl, Int.lt_of_not_ge htype, ?_, rfl⟩
    simp only [not_or, Nat.not_lt] at hfull
    exact hfull.1

/-- What sys_msgrcv can do: fail or block before touching the queue (never
with -E2BIG), or unlink the message the search found and then either return
its first msgsz bytes or, when it is larger than msgsz and MSG_NOERROR is
clear, fail with -E2BIG. -/
theorem sysMsgrcv_cases (q : MsgQueue) (msgsz : Nat) (msgtyp : Int) (msgflg : Nat) :
    ((sysMsgrcv q msgsz msgtyp msgflg).2 = q ∧ ((sysMsgrcv q msgsz msgtyp msgflg).1 = .blocked ∨
        ∃ code, code ≠ -e2big ∧ (sysMsgrcv q msgsz msgtyp msgflg).1 = .error code)) ∨
      ∃ pre msg post, msgSearch q.chain msgtyp msgflg = some (pre, msg, post) ∧
        sysMsgrcv q msgsz msgtyp msgflg =
          (if msgsz < msg.data.length ∧ msgflg &&& msgNoerror = 0 then .error (-e2big)
            else .received msg (msg.data.take msgsz), msgUnlink q pre msg post) := by
  unfold sysMsgrcv
  by_cases hsz : msgsz = 0
  · rw [if_pos hsz]
    exact Or.inl ⟨rfl, Or.inr ⟨-einval, by decide, rfl⟩⟩
  rw [if_neg hsz]
  by_cases hdel : q.deleted = true
  · rw [if_pos hdel]
    exact Or.inl ⟨rfl, Or.inr ⟨-eidrm, by decide, rfl⟩⟩
  rw [if_neg hdel]
  rcases hsearch : msgSearch q.chain msgtyp msgflg with _ | ⟨pre, msg, post⟩
  · by_cases hnowait : msgflg &&& ipcNowait ≠ 0
    · rw [if_pos hnowait]
      exact Or.inl ⟨rfl, Or.inr ⟨-enomsg, by decide, rfl⟩⟩
    · rw [if_neg hnowait]
      exact Or.inl ⟨rfl, Or.inl rfl⟩
  · refine Or.inr ⟨pre, msg, post, rfl, ?_⟩
    dsimp only
    by_cases hbig : msg.data.length > msgsz
    · rw [if_pos hbig]
      by_cases hnoerror : msgflg &&& msgNoerror ≠ 0
      · rw [if_pos hnoerror, if_neg (fun h => hnoerror h.2)]
      · rw [if_neg hnoerror, if_pos ⟨hbig, not_not.mp hnoerror⟩]
    · -- the whole message fits, so taking msgsz bytes takes it all
      rw [if_neg hbig, if_neg (fun h => hbig h.1), List.take_of_length_le (Nat.le_of_not_lt hbig)]

theorem sysMsgrcv_effect (q : MsgQueue) (msgsz : Nat) (msgtyp : Int) (msgflg : Nat) :
    MsgEffect q (sysMsgrcv q msgsz msgtyp msgflg).1 (sysMsgrcv q msgsz msgtyp msgflg).2 := by
  rcases sysMsgrcv_cases q msgsz msgtyp msgflg with ⟨hq, hblocked | ⟨code, -, herror⟩⟩ | ⟨pre, msg, post, hsearch, heq⟩
  · rw [hblocked, hq]
    exact rfl
  · rw [herror, hq]
    exact Or.inl rfl
  · have hchain := msgSearch_eq_some hsearch
    rw [heq]
    split
    · exact Or.inr ⟨rfl, pre, msg, post, hchain, rfl⟩
    · exact ⟨pre, post, hchain, rfl⟩

theorem msgCall_effect (q : MsgQueue) : ∀ call : MsgCall, MsgEffect q (msgCall q call).1 (msgCall q call).2
  | .msgsnd mtype data msgflg => sysMsgsnd_effect q mtype data msgflg
  | .msgrcv msgsz msgtyp msgflg => sysMsgrcv_effect q msgsz msgtyp msgflg

theorem MsgInv.msgEffect {q next : MsgQueue} {outcome : MsgOutcome} (hinv : MsgInv q) (h : MsgEffect q outcome next) :
    MsgInv next := by
  cases outcome with
  | sent msg =>
    obtain ⟨haddr, htype, hroom, rfl⟩ := h
    exact hinv.msgLink haddr htype hroom
  | received msg copied =>
    obtain ⟨pre, post, hchain, rfl⟩ := h
    exact hinv.msgUnlink hchain
  | error code =>
    rcases h with rfl | ⟨-, pre, msg, post, hchain, rfl⟩
    · exact hinv
    · exact hinv.msgUnlink hchain
  | blocked =>
    rw [show next = q from h]
    exact hinv

/-- Along any run of sys_msgsnd and sys_msgrcv, qnum is the chain's length,
cbytes the sum of its sizes and at most qbytes, and tail its last node. -/
theorem MsgInv.msgRun {q : MsgQueue} (hinv : MsgInv q) : ∀ calls : List MsgCall, MsgInv (msgRun q calls).2
  | [] => hinv
  | call :: calls => (hinv.msgEffect (msgCall_effect q call)).msgRun calls

/-- Two sends and a receive on a new queue keep the invariant. -/
theorem msgInv_msgRun_send_send_receive :
    MsgInv msgQueueNew ∧ MsgInv (msgRun msgQueueNew [.msgsnd 3 [1, 2] 0, .msgsnd 1 [5] 0, .msgrcv 8 0 0]).2 :=
  ⟨msgInv_msgQueueNew, MsgInv.msgRun msgInv_msgQueueNew _⟩

/-! ## Where sys_msgrcv departs from msgrcv(2) -/

/-- For msgtyp > 0 sys_msgrcv takes the first message of type msgtyp whatever
MSG_EXCEPT says; for msgtyp < 0 (above INT64_MIN) without MSG_EXCEPT, the
first of type at most |msgtyp|; and -E2BIG comes after the unlink, so the
queue has lost the message. -/
theorem sys_msgrcv_selection_and_e2big (q : MsgQueue) (msgsz : Nat) (msgtyp : Int) (msgflg : Nat) :
    (0 < msgtyp →
      (msgSearch q.chain msgtyp msgflg).map (fun r => r.2.1) = q.chain.find? (fun msg => msg.type == msgtyp)) ∧
    (msgtyp < 0 → -2 ^ 63 < msgtyp → msgflg &&& msgExcept = 0 →
      (msgSearch q.chain msgtyp msgflg).map (fun r => r.2.1) =
        q.chain.find? (fun msg => decide (msg.type ≤ -msgtyp))) ∧
    ((sysMsgrcv q msgsz msgtyp msgflg).1 = .error (-e2big) →
      ∃ pre msg post, q.chain = pre ++ msg :: post ∧ msgsz < msg.data.length ∧
        (sysMsgrcv q msgsz msgtyp msgflg).2.chain = pre ++ post) := by
  refine ⟨fun hpos => ?_, fun hneg hmin hexcept => ?_, fun he2big => ?_⟩
  · rw [msgSearch.eq_def, if_neg (Int.ne_of_gt hpos), if_pos hpos, msgScan_map]
  · have hlimit : int64Neg msgtyp = -msgtyp := if_neg (Int.ne_of_gt hmin)
    rw [msgSearch.eq_def, if_neg (Int.ne_of_lt hneg), if_neg (Int.not_lt.mpr (Int.le_of_lt hneg)), msgScan_map, hlimit]
    simp [hexcept]
  · rcases sysMsgrcv_cases q msgsz msgtyp msgflg with ⟨-, hblocked | ⟨code, hcode, herror⟩⟩ |
        ⟨pre, msg, post, hsearch, heq⟩
    · rw [hblocked] at he2big
      cases he2big
    · rw [herror, MsgOutcome.error.injEq] at he2big
      exact absurd he2big hcode
    · rw [heq] at he2big ⊢
      split at he2big
      · next hbig => exact ⟨pre, msg, post, msgSearch_eq_some hsearch, hbig.1, rfl⟩
      · cases he2big

/-- A queue that got a 4-byte message of type 3, then a 1-byte message of type 1. -/
def twoMessages : MsgQueue := (msgRun msgQueueNew [.msgsnd 3 [1, 2, 3, 4] 0, .msgsnd 1 [5] 0]).2

/-- On twoMessages, MSG_EXCEPT with msgtyp 3 and msgtyp -3 both take the type-3
message where msgrcv(2) takes the type-1 one, and msgrcv with msgsz 1 fails
with -E2BIG and loses the head message. -/
theorem sys_msgrcv_diverges_on_two_messages :
    (msgSearch twoMessages.chain 3 msgExcept).map (fun r => r.2.1) = some ⟨1, 3, [1, 2, 3, 4]⟩ ∧
      msgrcvSelect twoMessages.chain 3 msgExcept = some ⟨2, 1, [5]⟩ ∧
      (msgSearch twoMessages.chain (-3) 0).map (fun r => r.2.1) = some ⟨1, 3, [1, 2, 3, 4]⟩ ∧
      msgrcvSelect twoMessages.chain (-3) 0 = some ⟨2, 1, [5]⟩ ∧
      (∃ pre msg post, twoMessages.chain = pre ++ msg :: post ∧ 1 < msg.data.length ∧
        (sysMsgrcv twoMessages 1 0 0).2.chain = pre ++ post) ∧
      (sysMsgrcv twoMessages 1 0 0).2.chain = [⟨2, 1, [5]⟩] := by
  have hchain : twoMessages.chain = [⟨1, 3, [1, 2, 3, 4]⟩, ⟨2, 1, [5]⟩] := by decide
  refine ⟨?_, by rw [hchain]; decide, ?_, by rw [hchain]; decide,
    (sys_msgrcv_selection_and_e2big twoMessages 1 0 0).2.2 (by decide), by decide⟩
  · rw [(sys_msgrcv_selection_and_e2big twoMessages 1 3 msgExcept).1 (by decide), hchain]
    decide
  · rw [(sys_msgrcv_selection_and_e2big twoMessages 1 (-3) 0).2.1 (by decide) (by decide) (by decide), hchain]
    decide

end Uinxed.Msg
