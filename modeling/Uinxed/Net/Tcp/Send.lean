/-
  Net/Tcp/Send.lean --- the sending side of tcp.c: tcp_emit's retransmission
  list, tcp_connect, tcp_send and tcp_shutdown.

  The retransmission list is meant to cover [snd_una, snd_nxt) record after
  record.  tcp_connect only checks that the endpoint is CLOSED before it
  picks a new initial sequence number and appends a SYN record, and an
  accepted RST closes an endpoint without freeing its list.  A connection
  refused by a RST and retried on the same endpoint therefore keeps the
  first attempt's SYN at the head of the list, before the new snd_una.

  The failures of routing, allocation and output are what the environment
  gives tcp_emit: an emission either goes out (none) or fails with a
  status.  tcp_send's window comes from peer_window, cwnd and peer_mss,
  which are read here as given; its zero-window persist bookkeeping does
  not touch the list and is left out.
-/
import Uinxed.Net.Tcp.Input
import Mathlib.Data.UInt

set_option autoImplicit false

namespace Uinxed.Tcp

def emsgsize : Int := 90
def ealready : Int := 114
def einprogress : Int := 115

/-- TCP_HEADER_LEN. -/
def tcpHeaderLen : Nat := 20
/-- TCP_TX_SEGMENT_MAX. -/
def tcpTxSegmentMax : Nat := 32
/-- TCP_FLAG_PSH. -/
def tcpFlagPsh : UInt8 := 0x08

/-! ## tcp_emit -/

/-- The sequence space of a segment: its bytes, and one each for SYN and
FIN. -/
def sequenceLength (flags : UInt8) (data : List UInt8) : UInt32 :=
  data.length.toUInt32 + (if flags &&& tcpFlagSyn ≠ 0 then 1 else 0) + (if flags &&& tcpFlagFin ≠ 0 then 1 else 0)

/-- tcp_emit: a segment of length above the 16-bit limit is refused; one
that fails on the way out leaves the endpoint as it was; a tracked segment
with sequence space that goes out is appended to the retransmission
list. -/
def tcpEmit (ep : TcpEndpoint) (sequence : UInt32) (flags : UInt8) (data : List UInt8) (track : Bool)
    (failure : Option Int) : TcpEndpoint × Int :=
  let headerLength := tcpHeaderLen + (if flags &&& tcpFlagSyn ≠ 0 then 4 else 0)
  if data.length > uint16Max - headerLength then (ep, -emsgsize)
  else match failure with
    | some status => (ep, status)
    | none =>
      let length := sequenceLength flags data
      if track ∧ length ≠ 0 then
        ({ ep with txHead := ep.txHead ++ [⟨sequence, sequence + length, data, flags⟩] }, 0)
      else (ep, 0)

/-! ## Opening, sending and closing -/

/-- The locked part of tcp_connect: an endpoint that is not CLOSED answers
EALREADY; otherwise the new initial sequence number iss starts the send
sequence and a SYN is emitted, the endpoint falling back to CLOSED if it
fails. -/
def tcpConnect (ep : TcpEndpoint) (iss : UInt32) (failure : Option Int) : TcpEndpoint × Int :=
  if ep.state ≠ .closed then (ep, -ealready)
  else
    let ep := { ep with sndUna := iss, sndNxt := iss + 1, state := .synSent }
    let (ep, status) := tcpEmit ep ep.sndUna tcpFlagSyn [] true failure
    if status ≠ 0 then ({ ep with state := .closed }, status) else (ep, -einprogress)

/-- The fields tcp_send sizes its segments by. -/
structure TcpSendWindow where
  peerWindow : UInt16
  cwnd : UInt32
  peerMss : UInt16
  deriving DecidableEq, Repr

/-- The loop of tcp_send from sent bytes already sent, each emission taking
the next failure of the list (none once the list is used up). -/
def tcpSendLoop (win : TcpSendWindow) (data : List UInt8) :
    Nat → Nat → List (Option Int) → TcpEndpoint → TcpEndpoint × Int
  | 0, sent, _, ep => (ep, if sent ≠ 0 then sent else -eagain)
  | fuel + 1, sent, failures, ep =>
    if sent < data.length then
      let flight := ep.sndNxt - ep.sndUna
      let sendWindow := min win.peerWindow.toUInt32 win.cwnd
      if ep.txHead.length ≥ tcpTxSegmentMax ∨ sendWindow ≤ flight then
        (ep, if sent ≠ 0 then sent else -eagain)
      else
        let allowed := (sendWindow - flight).toNat
        let chunk := min (min (data.length - sent) win.peerMss.toNat) allowed
        if chunk = 0 then (ep, if sent ≠ 0 then sent else -eagain)
        else
          let (ep, status) := tcpEmit ep ep.sndNxt (tcpFlagAck ||| tcpFlagPsh) ((data.drop sent).take chunk) true
            failures.head?.join
          if status ≠ 0 then (ep, if sent ≠ 0 then sent else status)
          else tcpSendLoop win data fuel (sent + chunk) failures.tail
            { ep with sndNxt := ep.sndNxt + chunk.toUInt32 }
    else (ep, if sent ≠ 0 then sent else -eagain)

/-- tcp_send of a non-empty buffer on the given window. -/
def tcpSend (ep : TcpEndpoint) (win : TcpSendWindow) (data : List UInt8) (failures : List (Option Int)) :
    TcpEndpoint × Int :=
  if data.length = 0 then (ep, 0)
  else if ep.state ≠ .established ∧ ep.state ≠ .closeWait then (ep, -enotconn)
  else tcpSendLoop win data data.length 0 failures ep

/-- tcp_shutdown: a FIN from ESTABLISHED or CLOSE_WAIT. -/
def tcpShutdown (ep : TcpEndpoint) (failure : Option Int) : TcpEndpoint × Int :=
  let next : Option TcpState :=
    if ep.state = .established then some .finWait1
    else if ep.state = .closeWait then some .lastAck
    else none
  match next with
  | none => (ep, -enotconn)
  | some next =>
    let (ep, status) := tcpEmit ep ep.sndNxt (tcpFlagFin ||| tcpFlagAck) [] true failure
    if status = 0 then ({ ep with sndNxt := ep.sndNxt + 1, state := next }, 0) else (ep, status)

/-! ## The retransmission list -/

/-- The records cover the sequence space from a to b, each starting where
the one before ends. -/
def TxCovers : UInt32 → List TxRecord → UInt32 → Prop
  | a, [], b => a = b
  | a, record :: rest, b => record.sequence = a ∧ TxCovers record.endSequence rest b

/-- The sequence space the records hold. -/
def txSpace (records : List TxRecord) : UInt32 := (records.map fun r => r.endSequence - r.sequence).sum

/-! ## Calls on one endpoint -/

/-- The calls that append to or trim the retransmission list: the socket
side's connect, send and shutdown, and a segment tcp_input matched to the
endpoint. -/
inductive TcpCall
  | connect (iss : UInt32) (failure : Option Int)
  | send (win : TcpSendWindow) (data : List UInt8) (failures : List (Option Int))
  | shutdown (failure : Option Int)
  | input (seg : TcpSegment)

/-- One call, on the endpoint it leaves behind. -/
def tcpCall (ep : TcpEndpoint) : TcpCall → TcpEndpoint
  | .connect iss failure => (tcpConnect ep iss failure).1
  | .send win data failures => (tcpSend ep win data failures).1
  | .shutdown failure => (tcpShutdown ep failure).1
  | .input seg => (tcpInput ep seg).1

/-- A sequence of calls. -/
def tcpRun (ep : TcpEndpoint) (calls : List TcpCall) : TcpEndpoint := calls.foldl tcpCall ep

/-! ## One step at a time -/

/-- A tracked segment with sequence space that goes out is appended to the
retransmission list. -/
theorem tcpEmit_sent (ep : TcpEndpoint) (sequence : UInt32) (flags : UInt8) (data : List UInt8)
    (hsize : data.length ≤ uint16Max - (tcpHeaderLen + if flags &&& tcpFlagSyn ≠ 0 then 4 else 0))
    (hlen : sequenceLength flags data ≠ 0) :
    tcpEmit ep sequence flags data true none =
      ({ ep with txHead := ep.txHead ++ [⟨sequence, sequence + sequenceLength flags data, data, flags⟩] }, 0) := by
  have hfits : ¬ data.length > uint16Max - (tcpHeaderLen + if flags &&& tcpFlagSyn ≠ 0 then 4 else 0) :=
    Nat.not_lt.mpr hsize
  simp only [tcpEmit, hfits, ↓reduceIte]
  simp [hlen]

/-- tcp_connect on a CLOSED endpoint whose SYN goes out: the send sequence
starts at iss and the SYN record is appended to whatever the list held. -/
theorem tcpConnect_closed (ep : TcpEndpoint) (hstate : ep.state = .closed) (iss : UInt32) :
    tcpConnect ep iss none =
      ({ ep with
          sndUna := iss
          sndNxt := iss + 1
          state := .synSent
          txHead := ep.txHead ++ [⟨iss, iss + 1, [], tcpFlagSyn⟩] }, -einprogress) := by
  have hemit := tcpEmit_sent { ep with sndUna := iss, sndNxt := iss + 1, state := .synSent } iss tcpFlagSyn []
    (by decide) (by decide)
  have hsyn : sequenceLength tcpFlagSyn [] = 1 := by decide
  rw [hsyn] at hemit
  simp only [tcpConnect, hstate, ne_eq, not_true_eq_false, ↓reduceIte, hemit]

/-- An RST that acknowledges the SYN of a SYN_SENT endpoint closes it, and
leaves its retransmission list as it is. -/
theorem tcpInput_rst_synSent (ep : TcpEndpoint) (hstate : ep.state = .synSent) (sequence : UInt32) :
    tcpInput ep ⟨sequence, ep.sndNxt, tcpFlagRst ||| tcpFlagAck, []⟩ = ({ ep with state := .closed }, -econnreset) := by
  have hsynfin : (tcpFlagRst ||| tcpFlagAck) &&& (tcpFlagSyn ||| tcpFlagFin) ≠ tcpFlagSyn ||| tcpFlagFin := by decide
  have hrst : (tcpFlagRst ||| tcpFlagAck) &&& tcpFlagRst ≠ 0 := by decide
  have hack : (tcpFlagRst ||| tcpFlagAck) &&& tcpFlagAck ≠ 0 := by decide
  simp [tcpInput, hsynfin, TcpSegment.has, hrst, hack, hstate]

/-! ## A refused connection retried -/

/-- A connection refused by a RST and retried on the same endpoint: the
first SYN record is still at the head of the list, before the new snd_una,
and the list holds two sequence numbers for a flight of one. -/
theorem tcpConnect_after_reset_keeps_stale_syn (ep : TcpEndpoint) (hstate : ep.state = .closed)
    (htx : ep.txHead = []) (i₁ i₂ s : UInt32) (hne : i₁ ≠ i₂) :
    let ep₁ := tcpRun ep [.connect i₁ none]
    let ep₃ := tcpRun ep [.connect i₁ none, .input ⟨s, i₁ + 1, tcpFlagRst ||| tcpFlagAck, []⟩, .connect i₂ none]
    TxCovers ep₁.sndUna ep₁.txHead ep₁.sndNxt ∧ ep₃.state = .synSent ∧
      ep₃.txHead = [⟨i₁, i₁ + 1, [], tcpFlagSyn⟩, ⟨i₂, i₂ + 1, [], tcpFlagSyn⟩] ∧ ep₃.sndUna = i₂ ∧
      ep₃.sndNxt - ep₃.sndUna = 1 ∧ txSpace ep₃.txHead = 2 ∧ ¬ TxCovers ep₃.sndUna ep₃.txHead ep₃.sndNxt := by
  intro ep₁ ep₃
  -- the three calls, one step lemma each
  have h₁ : ep₁ =
      { ep with
        sndUna := i₁
        sndNxt := i₁ + 1
        state := .synSent
        txHead := [⟨i₁, i₁ + 1, [], tcpFlagSyn⟩] } := by
    simp only [ep₁, tcpRun, List.foldl, tcpCall, tcpConnect_closed ep hstate, htx, List.nil_append]
  have h₂ : (tcpInput ep₁ ⟨s, i₁ + 1, tcpFlagRst ||| tcpFlagAck, []⟩).1 = { ep₁ with state := .closed } := by
    have hsyn : ep₁.state = .synSent := by rw [h₁]
    have hnxt : ep₁.sndNxt = i₁ + 1 := by rw [h₁]
    rw [← hnxt, tcpInput_rst_synSent ep₁ hsyn]
  have h₃ : ep₃ =
      { ep₁ with
        sndUna := i₂
        sndNxt := i₂ + 1
        state := .synSent
        txHead := ep₁.txHead ++ [⟨i₂, i₂ + 1, [], tcpFlagSyn⟩] } := by
    have hrun : ep₃ = (tcpConnect { ep₁ with state := .closed } i₂ none).1 := by
      show (tcpConnect (tcpInput ep₁ ⟨s, i₁ + 1, tcpFlagRst ||| tcpFlagAck, []⟩).1 i₂ none).1 = _
      rw [h₂]
    rw [hrun, tcpConnect_closed _ rfl]
  have hhead : ep₃.txHead = [⟨i₁, i₁ + 1, [], tcpFlagSyn⟩, ⟨i₂, i₂ + 1, [], tcpFlagSyn⟩] := by
    rw [h₃, h₁]; rfl
  refine ⟨?_, by rw [h₃], hhead, by rw [h₃], ?_, ?_, ?_⟩
  · rw [h₁]
    exact ⟨rfl, rfl⟩
  · rw [h₃]
    grind
  · rw [hhead]
    simp only [txSpace, List.map_cons, List.map_nil, List.sum_cons, List.sum_nil]
    grind
  · -- the head record starts at the first attempt's i₁, not at snd_una
    rw [hhead, h₃]
    exact fun hcov => hne hcov.1

/-- A closed endpoint that has never sent. -/
def freshEndpoint : TcpEndpoint := ⟨.closed, 0, 0, 0, [], 0, 0, [], []⟩

theorem tcpConnect_after_reset_keeps_stale_syn_fresh :
    freshEndpoint.state = .closed ∧ freshEndpoint.txHead = [] ∧ (100 : UInt32) ≠ 64201 ∧
    let ep₁ := tcpRun freshEndpoint [.connect 100 none]
    let ep₃ := tcpRun freshEndpoint [.connect 100 none, .input ⟨0, 100 + 1, tcpFlagRst ||| tcpFlagAck, []⟩,
      .connect 64201 none]
    TxCovers ep₁.sndUna ep₁.txHead ep₁.sndNxt ∧ ep₃.state = .synSent ∧
      ep₃.txHead = [⟨100, 100 + 1, [], tcpFlagSyn⟩, ⟨64201, 64201 + 1, [], tcpFlagSyn⟩] ∧ ep₃.sndUna = 64201 ∧
      ep₃.sndNxt - ep₃.sndUna = 1 ∧ txSpace ep₃.txHead = 2 ∧ ¬ TxCovers ep₃.sndUna ep₃.txHead ep₃.sndNxt :=
  ⟨rfl, rfl, by decide, tcpConnect_after_reset_keeps_stale_syn freshEndpoint rfl rfl 100 64201 0 (by decide)⟩

end Uinxed.Tcp
