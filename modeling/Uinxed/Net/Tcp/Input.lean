/-
  Net/Tcp/Input.lean --- the out-of-order queue, tcp_input on a segment that
  reached its endpoint, and tcp_receive.

  tcp_input's IPv4 and IPv6 entry points parse the header and look the
  endpoint up in their own way, then run the same code on the segment; that
  code is tcpInput below, from the SYN+FIN check to the data path.  Emitted
  acknowledgements, wake-ups, callbacks and timer fields do not change the
  modelled fields and are left out.  Allocation of an out-of-order record
  succeeds.
-/
import Uinxed.Net.Tcp.Endpoint

set_option autoImplicit false

namespace Uinxed.Tcp

/-! ## The out-of-order queue -/

/-- 1 for a FIN, as !!fin in the source. -/
def finBit (fin : Bool) : UInt32 := if fin then 1 else 0

/-- tcp_queue_ooo: insert an out-of-order segment into the queue sorted by
sequence, dropping one that starts where a queued record starts or overlaps
a neighbour. -/
def tcpQueueOoo (ep : TcpEndpoint) (sequence : UInt32) (data : List UInt8) (fin : Bool) : TcpEndpoint × Int :=
  let length := data.length
  -- the free space is computed in unsigned int, as in tcp_window
  if (length = 0 ∧ !fin) ∨ ep.oooCount ≥ tcpOooSegmentMax ∨ length > uint16Max ∨
      length > (tcpRxBufferMax - ep.rxLength.toUInt32 - ep.oooLength.toUInt32).toNat then (ep, -enobufs)
  else
    -- position: the first record that is not before the segment
    let (before, after) := ep.oooHead.span (fun r => seqBefore r.sequence sequence)
    let sameStart := match after with
      | next :: _ => decide (next.sequence = sequence)
      | [] => false
    let overlapsPrevious := match before.getLast? with
      | some previous => seqAfter (previous.sequence + previous.data.length.toUInt32 + finBit previous.fin) sequence
      | none => false
    let overlapsNext := match after with
      | next :: _ => seqAfter (sequence + length.toUInt32 + finBit fin) next.sequence
      | [] => false
    if sameStart || overlapsPrevious || overlapsNext then (ep, 0)
    else
      ({ ep with
          oooHead := before ++ ⟨sequence, data, fin⟩ :: after
          oooCount := ep.oooCount + 1
          oooLength := ep.oooLength + length.toUInt16 }, 0)

/-- The loop of tcp_drain_ooo over the queue q, which is the endpoint's
ooo_head: move the head record into the RX buffer while it starts at
rcv_nxt and fits. -/
def tcpDrainOooLoop : List OooRecord → TcpEndpoint → TcpEndpoint
  | [], ep => ep
  | record :: rest, ep =>
    if record.sequence = ep.rcvNxt ∧ ¬ record.data.length > tcpRxBufferMax.toNat - ep.rxLength then
      let ep := { ep with
        oooHead := rest
        oooCount := ep.oooCount - 1
        oooLength := ep.oooLength - record.data.length.toUInt16 }
      let ep := if record.data.length ≠ 0 then
          { ep with rxData := ep.rxData ++ record.data, rcvNxt := ep.rcvNxt + record.data.length.toUInt32 }
        else ep
      let ep := if record.fin then tcpReceivedFin ep else ep
      tcpDrainOooLoop rest ep
    else ep

/-- tcp_drain_ooo. -/
def tcpDrainOoo (ep : TcpEndpoint) : TcpEndpoint := tcpDrainOooLoop ep.oooHead ep

/-! ## tcp_input -/

/-- The fields of an incoming segment that tcp_input reads after the
lookup. -/
structure TcpSegment where
  sequence : UInt32
  acknowledgment : UInt32
  flags : UInt8
  payload : List UInt8
  deriving DecidableEq, Repr

/-- Whether the flags hold flag f. -/
def TcpSegment.has (seg : TcpSegment) (f : UInt8) : Bool := seg.flags &&& f ≠ 0

/-- The sequence check of a synchronized endpoint: the segment starts inside
the receive window, or it is data that straddles rcv_nxt. -/
def sequenceAcceptable (ep : TcpEndpoint) (seg : TcpSegment) : Bool :=
  let receiveWindow := tcpWindow ep
  let sequenceValid :=
    if receiveWindow ≠ 0 then
      !seqBefore seg.sequence ep.rcvNxt && seqBefore seg.sequence (ep.rcvNxt + receiveWindow.toUInt32)
    else seg.sequence = ep.rcvNxt
  sequenceValid || (seg.payload.length ≠ 0 && seqBefore seg.sequence ep.rcvNxt &&
    seqAfter (seg.sequence + seg.payload.length.toUInt32) ep.rcvNxt)

/-- The data path of tcp_input: trim what lies before rcv_nxt, queue a
segment that starts after it, append one that starts at it and drain the
queue. -/
def tcpInputData (ep : TcpEndpoint) (seg : TcpSegment) : TcpEndpoint :=
  let dataSequence := seg.sequence + (if seg.has tcpFlagSyn then 1 else 0)
  let fin := seg.has tcpFlagFin
  let (dataSequence, payload, fin) :=
    if seqBefore dataSequence ep.rcvNxt then
      let overlap := (ep.rcvNxt - dataSequence).toNat
      if overlap ≥ seg.payload.length then
        (ep.rcvNxt, [], if overlap > seg.payload.length ∨ !fin then false else fin)
      else (ep.rcvNxt, seg.payload.drop overlap, fin)
    else (dataSequence, seg.payload, fin)
  if seqAfter dataSequence ep.rcvNxt then
    if (dataSequence - ep.rcvNxt).toNat ≤ (tcpWindow ep).toNat then (tcpQueueOoo ep dataSequence payload fin).1
    else ep
  else if payload.length ≤ tcpRxBufferMax.toNat - ep.rxLength then
    let ep := if payload.length ≠ 0 then
        { ep with rxData := ep.rxData ++ payload, rcvNxt := ep.rcvNxt + payload.length.toUInt32 }
      else ep
    let ep := if fin then tcpReceivedFin ep else ep
    tcpDrainOoo ep
  else ep

/-- The state changes of tcp_input after the acknowledgement: the handshake
states, and the closing states whose FIN is acknowledged.  none is a return
before the data path. -/
def tcpInputState (ep : TcpEndpoint) (seg : TcpSegment) : Option TcpEndpoint × Int :=
  let synAck := tcpFlagSyn ||| tcpFlagAck
  let ep? : Option TcpEndpoint × Int :=
    if ep.state = .synSent then
      if seg.flags &&& synAck ≠ synAck ∨ seg.acknowledgment ≠ ep.sndNxt then (none, -eagain)
      else (some { ep with rcvNxt := seg.sequence + 1, state := .established }, 0)
    else if ep.state = .synReceived ∧ seg.has tcpFlagSyn ∧ !seg.has tcpFlagAck then (none, 0)
    else if ep.state = .synReceived then
      if !seg.has tcpFlagAck ∨ seg.acknowledgment ≠ ep.sndNxt ∨ seg.sequence ≠ ep.rcvNxt then (none, -eagain)
      else (some { ep with state := .established }, 0)
    else if ep.state ≠ .established ∧ ep.state ≠ .finWait1 ∧ ep.state ≠ .finWait2 ∧
        ep.state ≠ .closeWait ∧ ep.state ≠ .closing ∧ ep.state ≠ .lastAck then (none, -enotconn)
    else (some ep, 0)
  match ep? with
  | (some ep, status) =>
    let acked := !seqBefore ep.sndUna ep.sndNxt
    if ep.state = .finWait1 ∧ acked then (some { ep with state := .finWait2 }, status)
    else if ep.state = .closing ∧ acked then (some { ep with state := .timeWait }, status)
    else if ep.state = .lastAck ∧ acked then (some { ep with state := .closed }, status)
    else (some ep, status)
  | other => other

/-- tcp_input on a segment for the endpoint it was matched to: the new
endpoint and the status returned. -/
def tcpInput (ep : TcpEndpoint) (seg : TcpSegment) : TcpEndpoint × Int :=
  if seg.flags &&& (tcpFlagSyn ||| tcpFlagFin) = tcpFlagSyn ||| tcpFlagFin then (ep, -ebadmsg)
  else if seg.has tcpFlagRst then
    let acceptable :=
      if ep.state = .synSent then seg.has tcpFlagAck && seg.acknowledgment = ep.sndNxt
      else !seqBefore seg.sequence ep.rcvNxt && !seqAfter seg.sequence (ep.rcvNxt + (tcpWindow ep).toUInt32)
    if !acceptable then (ep, -eagain) else ({ ep with state := .closed }, -econnreset)
  else if ep.state = .timeWait then (ep, 0)
  else if ep.state ≠ .synSent ∧ ep.state ≠ .synReceived ∧ ep.state ≠ .listen ∧ !sequenceAcceptable ep seg then
    (ep, -eagain)
  else if seg.has tcpFlagAck ∧ (seqBefore seg.acknowledgment ep.sndUna ∨ seqAfter seg.acknowledgment ep.sndNxt) then
    (ep, -ebadmsg)
  else
    -- a duplicate acknowledgement retransmits without changing the list; a new one trims it
    let ep := if seg.has tcpFlagAck ∧ seqAfter seg.acknowledgment ep.sndUna then tcpAckRecords ep seg.acknowledgment
      else ep
    match tcpInputState ep seg with
    | (none, status) => (ep, status)
    | (some ep, _) =>
      if seg.payload.length ≠ 0 ∨ seg.has tcpFlagFin then (tcpInputData ep seg, 0) else (ep, 0)

/-! ## tcp_receive -/

/-- tcp_receive into a buffer of the given capacity: the endpoint after it,
the value returned, and the bytes copied out. -/
def tcpReceive (ep : TcpEndpoint) (capacity : Nat) : TcpEndpoint × Int × List UInt8 :=
  if ep.rxLength = 0 then
    (ep, if ep.state = .closeWait ∨ ep.state = .closed ∨ ep.state = .timeWait then 0 else -eagain, [])
  else
    let copied := min ep.rxLength capacity
    if copied ≠ 0 then ({ ep with rxData := ep.rxData.drop copied }, copied, ep.rxData.take copied)
    else (ep, 0, [])

end Uinxed.Tcp
