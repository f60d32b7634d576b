/-
  Net/Tcp/Endpoint.lean --- the control block of tcp.c as its receive path
  and its acknowledgement of sent data use it.

  The endpoint keeps the fields those paths read and write: the state, the
  send sequence numbers and the retransmission list, the receive sequence
  number, the bytes of the RX buffer, and the out-of-order queue with its two
  counters.  rx_length is the length of the RX bytes; ooo_length and
  ooo_count are fields of their own, since the code keeps them apart from the
  queue they count.  The list of tcp_tx_record_t keeps the sequence space of
  each record; the RTT, congestion and timer fields tcp_ack_records also
  updates are left out.
-/
import Mathlib.Algebra.GroupWithZero.Nat
import Mathlib.Data.List.Basic

set_option autoImplicit false

namespace Uinxed.Tcp

/-! ## Constants -/

/-- TCP_RX_BUFFER_MAX. -/
def tcpRxBufferMax : UInt32 := 65535
/-- TCP_OOO_SEGMENT_MAX. -/
def tcpOooSegmentMax : UInt8 := 16
/-- UINT16_MAX. -/
def uint16Max : Nat := 65535

/-- TCP_FLAG_FIN. -/
def tcpFlagFin : UInt8 := 0x01
/-- TCP_FLAG_SYN. -/
def tcpFlagSyn : UInt8 := 0x02
/-- TCP_FLAG_RST. -/
def tcpFlagRst : UInt8 := 0x04
/-- TCP_FLAG_ACK. -/
def tcpFlagAck : UInt8 := 0x10

def eagain : Int := 11
def ebadmsg : Int := 74
def econnreset : Int := 104
def enobufs : Int := 105
def enotconn : Int := 107

/-- tcp_state_t. -/
inductive TcpState
  | closed
  | listen
  | synSent
  | synReceived
  | established
  | finWait1
  | finWait2
  | closeWait
  | closing
  | lastAck
  | timeWait
  deriving DecidableEq, Repr

/-! ## Sequence numbers -/

/-- seq_before: a lies before b in the 32-bit sequence space. -/
def seqBefore (a b : UInt32) : Bool := (a - b).toInt32 < 0

/-- seq_after: a lies after b in the 32-bit sequence space. -/
def seqAfter (a b : UInt32) : Bool := (a - b).toInt32 > 0

/-- seq_before as a bound on the distance from b to a. -/
theorem seqBefore_iff (a b : UInt32) : seqBefore a b = true ↔ 2 ^ 31 ≤ (a - b).toNat := by
  have hlt : (a - b).toNat < 2 ^ 32 := UInt32.toNat_lt _
  simp only [seqBefore, decide_eq_true_eq, Int32.lt_iff_toInt_lt]
  change (a - b).toBitVec.toInt < (0 : Int32).toInt ↔ _
  rw [BitVec.toInt_eq_toNat_cond]
  simp only [Int32.toInt_zero, UInt32.toNat_toBitVec]
  split <;> omega

/-- seq_after as a bound on the distance from b to a. -/
theorem seqAfter_iff (a b : UInt32) : seqAfter a b = true ↔ 0 < (a - b).toNat ∧ (a - b).toNat < 2 ^ 31 := by
  have hlt : (a - b).toNat < 2 ^ 32 := UInt32.toNat_lt _
  simp only [seqAfter, decide_eq_true_eq, gt_iff_lt, Int32.lt_iff_toInt_lt]
  change (0 : Int32).toInt < (a - b).toBitVec.toInt ↔ _
  rw [BitVec.toInt_eq_toNat_cond]
  simp only [Int32.toInt_zero, UInt32.toNat_toBitVec]
  split <;> omega

@[simp] theorem seqBefore_self (x : UInt32) : seqBefore x x = false := by simp [seqBefore]

@[simp] theorem seqAfter_self (x : UInt32) : seqAfter x x = false := by simp [seqAfter]

/-- The distance between two offsets from one sequence number. -/
theorem add_sub_add_toNat (x : UInt32) {i j : UInt32} (hij : i.toNat ≤ j.toNat) :
    (x + j - (x + i)).toNat = j.toNat - i.toNat := by
  have h : x + j - (x + i) = j - i := by grind
  rw [h, UInt32.toNat_sub_of_le _ _ (UInt32.le_iff_toNat_le.mpr hij)]

theorem add_sub_add_toNat_of_lt (x : UInt32) {i j : UInt32} (hij : i.toNat < j.toNat) :
    (x + i - (x + j)).toNat = 2 ^ 32 - (j.toNat - i.toNat) := by
  have h : x + i - (x + j) = -(x + j - (x + i)) := by grind
  rw [h, UInt32.toNat_neg, add_sub_add_toNat x (Nat.le_of_lt hij)]
  have := UInt32.toNat_lt j
  simp only [UInt32.size]
  omega

/-- Of two offsets less than 2^31 apart, the smaller is before the larger. -/
theorem seqBefore_add_add (x : UInt32) {i j : UInt32} (hij : i.toNat < j.toNat)
    (hd : j.toNat - i.toNat ≤ 2 ^ 31) : seqBefore (x + i) (x + j) = true := by
  rw [seqBefore_iff, add_sub_add_toNat_of_lt x hij]
  omega

theorem seqBefore_add_add_eq_false (x : UInt32) {i j : UInt32} (hij : i.toNat ≤ j.toNat)
    (hd : j.toNat - i.toNat < 2 ^ 31) : seqBefore (x + j) (x + i) = false := by
  rw [← Bool.not_eq_true, seqBefore_iff, add_sub_add_toNat x hij]
  omega

theorem seqAfter_add_add (x : UInt32) {i j : UInt32} (hij : i.toNat < j.toNat)
    (hd : j.toNat - i.toNat < 2 ^ 31) : seqAfter (x + j) (x + i) = true := by
  rw [seqAfter_iff, add_sub_add_toNat x (Nat.le_of_lt hij)]
  omega

/-! ## Records -/

/-- tcp_ooo_record_t: an out-of-order segment, its length being the number
of its bytes. -/
structure OooRecord where
  sequence : UInt32
  data : List UInt8
  fin : Bool
  deriving DecidableEq, Repr

/-- The sequence space an out-of-order record covers: its bytes and its
FIN. -/
def OooRecord.span (r : OooRecord) : UInt32 := r.data.length.toUInt32 + (if r.fin then 1 else 0)

/-- tcp_tx_record_t: a segment kept for retransmission, with the sequence
space it covers. -/
structure TxRecord where
  sequence : UInt32
  endSequence : UInt32
  data : List UInt8
  flags : UInt8
  deriving DecidableEq, Repr

/-- tcp_endpoint_t, the fields the receive path and the acknowledgement of
sent data use. -/
structure TcpEndpoint where
  state : TcpState
  sndUna : UInt32
  sndNxt : UInt32
  rcvNxt : UInt32
  rxData : List UInt8
  oooLength : UInt16
  oooCount : UInt8
  oooHead : List OooRecord
  txHead : List TxRecord
  deriving DecidableEq, Repr

/-- rx_length. -/
def TcpEndpoint.rxLength (ep : TcpEndpoint) : Nat := ep.rxData.length

/-- tcp_window: the free space of the RX buffer, computed in unsigned int and
truncated to 16 bits. -/
def tcpWindow (ep : TcpEndpoint) : UInt16 :=
  (tcpRxBufferMax - ep.rxLength.toUInt32 - ep.oooLength.toUInt32).toUInt16

/-- While the RX and queued bytes fit the buffer, the unsigned free space
tcp_window and tcp_queue_ooo compute is the room left. -/
theorem tcpFree_toNat (ep : TcpEndpoint) (h : ep.rxLength + ep.oooLength.toNat ≤ tcpRxBufferMax.toNat) :
    (tcpRxBufferMax - ep.rxLength.toUInt32 - ep.oooLength.toUInt32).toNat =
      tcpRxBufferMax.toNat - ep.rxLength - ep.oooLength.toNat := by
  have hmax : tcpRxBufferMax.toNat = 65535 := rfl
  rw [hmax] at h ⊢
  have hrx : ep.rxLength.toUInt32.toNat = ep.rxLength := UInt32.toNat_ofNat_of_lt' (by unfold UInt32.size; omega)
  have hooo : ep.oooLength.toUInt32.toNat = ep.oooLength.toNat := UInt16.toNat_toUInt32 _
  rw [UInt32.toNat_sub_of_le, UInt32.toNat_sub_of_le, hrx, hooo, hmax]
  · rw [UInt32.le_iff_toNat_le, hrx, hmax]; omega
  · rw [UInt32.le_iff_toNat_le, hooo, UInt32.toNat_sub_of_le, hrx, hmax]
    · omega
    · rw [UInt32.le_iff_toNat_le, hrx, hmax]; omega

/-- While the RX and queued bytes fit the buffer, tcp_window is the room
left. -/
theorem tcpWindow_toNat (ep : TcpEndpoint) (h : ep.rxLength + ep.oooLength.toNat ≤ tcpRxBufferMax.toNat) :
    (tcpWindow ep).toNat = tcpRxBufferMax.toNat - ep.rxLength - ep.oooLength.toNat := by
  have hmax : tcpRxBufferMax.toNat = 65535 := rfl
  unfold tcpWindow
  rw [UInt32.toNat_toUInt16, tcpFree_toNat ep h, hmax]
  omega

/-! ## FIN and acknowledgements -/

/-- tcp_received_fin: the FIN takes one sequence number and moves the state
on; TIME_WAIT's deadline is left out. -/
def tcpReceivedFin (ep : TcpEndpoint) : TcpEndpoint :=
  let ep := { ep with rcvNxt := ep.rcvNxt + 1 }
  if ep.state = .established then { ep with state := .closeWait }
  else if ep.state = .finWait1 then { ep with state := .closing }
  else if ep.state = .finWait2 then { ep with state := .timeWait }
  else ep

/-- tcp_trim_acked_record: strip the acknowledged SYN and bytes from the head
record. -/
def tcpTrimAckedRecord (record : TxRecord) (acknowledgment : UInt32) : TxRecord :=
  let consumed := acknowledgment - record.sequence
  let (record, consumed) :=
    if record.flags &&& tcpFlagSyn ≠ 0 ∧ consumed ≠ 0 then
      ({ record with flags := record.flags &&& ~~~tcpFlagSyn, sequence := record.sequence + 1 }, consumed - 1)
    else (record, consumed)
  if consumed ≠ 0 then
    let dataAcked := min consumed.toNat record.data.length
    { record with data := record.data.drop dataAcked, sequence := record.sequence + dataAcked.toUInt32 }
  else record

/-- The loop of tcp_ack_records: drop the records the acknowledgement
covers. -/
def tcpDropAcked (acknowledgment : UInt32) : List TxRecord → List TxRecord
  | [] => []
  | record :: rest =>
    if !seqBefore acknowledgment record.endSequence then tcpDropAcked acknowledgment rest
    else record :: rest

/-- tcp_ack_records on the retransmission list and snd_una. -/
def tcpAckRecords (ep : TcpEndpoint) (acknowledgment : UInt32) : TcpEndpoint :=
  let txHead := match tcpDropAcked acknowledgment ep.txHead with
    | record :: rest =>
      if seqAfter acknowledgment record.sequence then tcpTrimAckedRecord record acknowledgment :: rest
      else record :: rest
    | [] => []
  { ep with txHead := txHead, sndUna := acknowledgment }

end Uinxed.Tcp
