/-
  Net/Tcp/Receive.lean --- what tcp_input does to the receive state of a
  synchronized endpoint.

  The step lemmas below say what one segment does on each branch the data
  path can take: queued out of order, appended in order, dropped.  The RX
  buffer itself never overflows: each append checks the free space of the
  buffer.  The out-of-order bytes are not part of that check, though, so an
  in-order segment may take the room the queue was promised, and it may
  cover a queued record without removing it.  After that, rx_length plus
  ooo_length exceeds TCP_RX_BUFFER_MAX, tcp_window wraps to a full window,
  and the queue holds a record that starts before rcv_nxt.
-/
import Uinxed.Net.Tcp.Input

set_option autoImplicit false

namespace Uinxed.Tcp

theorem seqBefore_eq_false_of_seqAfter {a b : UInt32} (h : seqAfter a b = true) : seqBefore a b = false := by
  simp only [seqAfter, seqBefore, decide_eq_true_eq, decide_eq_false_iff_not] at *
  exact Int32.not_lt.mpr (Int32.le_of_lt h)

/-! ## One segment on a synchronized endpoint -/

section Step

variable (ep : TcpEndpoint) (seg : TcpSegment)

theorem tcpInputState_established {ep seg} (h : ep.state = .established) : tcpInputState ep seg = (some ep, 0) := by
  simp [tcpInputState, h]

/-- A plain acknowledgement-carrying data segment on an established endpoint,
inside the window and acknowledging nothing new, goes to the data path. -/
theorem tcpInput_established_data (hstate : ep.state = .established) (hflags : seg.flags = tcpFlagAck)
    (hseq : sequenceAcceptable ep seg = true) (hack : seg.acknowledgment = ep.sndUna)
    (hnxt : seqAfter ep.sndUna ep.sndNxt = false) (hpay : seg.payload ≠ []) :
    tcpInput ep seg = (tcpInputData ep seg, 0) := by
  have hsynfin : seg.flags &&& (tcpFlagSyn ||| tcpFlagFin) ≠ tcpFlagSyn ||| tcpFlagFin := by
    rw [hflags]; decide
  have hrst : seg.has tcpFlagRst = false := by simp [TcpSegment.has, hflags]; decide
  have hackf : seg.has tcpFlagAck = true := by simp [TcpSegment.has, hflags]; decide
  have hlen : seg.payload.length ≠ 0 := by simpa using hpay
  simp [tcpInput, hsynfin, hrst, hstate, hseq, hackf, hack, hnxt, tcpInputState_established, hlen]

/-- A segment without SYN or FIN that starts after rcv_nxt, inside the
window, goes to the out-of-order queue. -/
theorem tcpInputData_after (hflags : seg.flags = tcpFlagAck) (hafter : seqAfter seg.sequence ep.rcvNxt = true)
    (hwin : (seg.sequence - ep.rcvNxt).toNat ≤ (tcpWindow ep).toNat) :
    tcpInputData ep seg = (tcpQueueOoo ep seg.sequence seg.payload false).1 := by
  have hsyn : seg.has tcpFlagSyn = false := by simp [TcpSegment.has, hflags]; decide
  have hfin : seg.has tcpFlagFin = false := by simp [TcpSegment.has, hflags]; decide
  simp [tcpInputData, hsyn, hfin, seqBefore_eq_false_of_seqAfter hafter, hafter, hwin]

/-- A segment without SYN or FIN that starts at rcv_nxt and fits the RX
buffer is appended to it, and the queue is drained. -/
theorem tcpInputData_at (hflags : seg.flags = tcpFlagAck) (hat : seg.sequence = ep.rcvNxt)
    (hpay : seg.payload ≠ []) (hfits : seg.payload.length ≤ tcpRxBufferMax.toNat - ep.rxLength) :
    tcpInputData ep seg =
      tcpDrainOoo { ep with rxData := ep.rxData ++ seg.payload, rcvNxt := ep.rcvNxt + seg.payload.length.toUInt32 } := by
  have hsyn : seg.has tcpFlagSyn = false := by simp [TcpSegment.has, hflags]; decide
  have hfin : seg.has tcpFlagFin = false := by simp [TcpSegment.has, hflags]; decide
  have hlen : seg.payload.length ≠ 0 := by simpa using hpay
  simp [tcpInputData, hsyn, hfin, hat, hfits, hlen]

end Step

/-! ## The out-of-order queue -/

/-- The first segment queued on an empty queue becomes its only record. -/
theorem tcpQueueOoo_nil {ep : TcpEndpoint} (hnil : ep.oooHead = []) {sequence : UInt32} {data : List UInt8}
    (hdata : data ≠ []) (hcount : ep.oooCount < tcpOooSegmentMax) (hlen : data.length ≤ uint16Max)
    (hfree : data.length ≤ (tcpRxBufferMax - ep.rxLength.toUInt32 - ep.oooLength.toUInt32).toNat) :
    tcpQueueOoo ep sequence data false =
      ({ ep with
          oooHead := [⟨sequence, data, false⟩]
          oooCount := ep.oooCount + 1
          oooLength := ep.oooLength + data.length.toUInt16 }, 0) := by
  have hlen0 : data.length ≠ 0 := by simpa using hdata
  have hcount' : ¬ ep.oooCount ≥ tcpOooSegmentMax := by
    rw [ge_iff_le, UInt8.not_le]
    exact hcount
  have hspan : List.span (fun r : OooRecord => seqBefore r.sequence sequence) [] = ([], []) := rfl
  simp only [tcpQueueOoo, hnil, hspan]
  simp [hlen0, hcount', Nat.not_lt.mpr hlen, Nat.not_lt.mpr hfree]

/-- The drain stops at once when the head record does not start at
rcv_nxt. -/
theorem tcpDrainOoo_of_head {ep : TcpEndpoint} {record : OooRecord} {rest : List OooRecord}
    (hhead : ep.oooHead = record :: rest) (hne : record.sequence ≠ ep.rcvNxt) : tcpDrainOoo ep = ep := by
  simp [tcpDrainOoo, hhead, tcpDrainOooLoop, hne]

/-! ## The buffer bound breaks -/

/-- Two parts of what a synchronized endpoint's receive state should keep:
the RX bytes and the queued bytes fit the buffer, and every queued record
starts after rcv_nxt. -/
structure RxFits (ep : TcpEndpoint) : Prop where
  fits : ep.rxLength + ep.oooLength.toNat ≤ tcpRxBufferMax.toNat
  after : ∀ r ∈ ep.oooHead, seqAfter r.sequence ep.rcvNxt = true

/-- On an established endpoint with an empty queue and two bytes of room or
more, the byte after rcv_nxt is queued out of order. -/
theorem tcpInput_queue_next {ep : TcpEndpoint} (hstate : ep.state = .established) (hnil : ep.oooHead = [])
    (hlen : ep.oooLength = 0) (hcount : ep.oooCount = 0) (hrx : ep.rxLength ≤ 65533)
    (hnxt : seqAfter ep.sndUna ep.sndNxt = false) (b : UInt8) :
    tcpInput ep ⟨ep.rcvNxt + 1, ep.sndUna, tcpFlagAck, [b]⟩ =
      ({ ep with oooHead := [⟨ep.rcvNxt + 1, [b], false⟩], oooCount := 1, oooLength := 1 }, 0) := by
  have hw : (tcpWindow ep).toNat = 65535 - ep.rxLength := by
    rw [tcpWindow_toNat ep (by rw [hlen]; simp [tcpRxBufferMax]; omega), hlen]
    simp [tcpRxBufferMax]
  have hW : (tcpWindow ep).toUInt32.toNat = 65535 - ep.rxLength := by rw [UInt16.toNat_toUInt32, hw]
  -- the byte lies one after rcv_nxt, inside a window of at least two
  have hafter : seqAfter (ep.rcvNxt + 1) ep.rcvNxt = true := by
    simpa using seqAfter_add_add ep.rcvNxt (i := 0) (j := 1) (by decide) (by decide)
  have hseq : sequenceAcceptable ep ⟨ep.rcvNxt + 1, ep.sndUna, tcpFlagAck, [b]⟩ = true := by
    have hne : tcpWindow ep ≠ 0 := fun h0 => by rw [h0] at hw; simp at hw; omega
    have hnb : seqBefore (ep.rcvNxt + 1) ep.rcvNxt = false := by
      simpa using seqBefore_add_add_eq_false ep.rcvNxt (i := 0) (j := 1) (by decide) (by decide)
    have hb : seqBefore (ep.rcvNxt + 1) (ep.rcvNxt + (tcpWindow ep).toUInt32) = true :=
      seqBefore_add_add ep.rcvNxt (by rw [hW]; simp; omega) (by rw [hW]; simp; omega)
    simp [sequenceAcceptable, hne, hnb, hb]
  have hdist : (ep.rcvNxt + 1 - ep.rcvNxt).toNat = 1 := by
    have h := add_sub_add_toNat ep.rcvNxt (i := 0) (j := 1) (by decide)
    rw [UInt32.add_zero] at h
    exact h
  rw [tcpInput_established_data ep _ hstate rfl hseq rfl hnxt (List.cons_ne_nil _ _),
    tcpInputData_after ep ⟨ep.rcvNxt + 1, ep.sndUna, tcpFlagAck, [b]⟩ rfl hafter (by rw [hdist, hw]; omega),
    tcpQueueOoo_nil hnil (List.cons_ne_nil _ _) (hcount.symm ▸ (by decide : (0 : UInt8) < tcpOooSegmentMax)) (by simp [uint16Max])
      (by rw [tcpFree_toNat ep (by rw [hlen]; simp [tcpRxBufferMax]; omega), hlen]; simp [tcpRxBufferMax]; omega)]
  simp [hcount, hlen]

/-- A segment from rcv_nxt that covers the queued byte after it, and no
more, is appended in order, two bytes of room being enough; the queued
record stays, since the drain only looks for a record at the new
rcv_nxt. -/
theorem tcpInput_cover_queued (ep : TcpEndpoint) (hstate : ep.state = .established) (b : UInt8)
    (hhead : ep.oooHead = [⟨ep.rcvNxt + 1, [b], false⟩]) (hlen : ep.oooLength = 1) (hrx : ep.rxLength ≤ 65533)
    (hnxt : seqAfter ep.sndUna ep.sndNxt = false) (a : UInt8) :
    tcpInput ep ⟨ep.rcvNxt, ep.sndUna, tcpFlagAck, [a, b]⟩ =
      ({ ep with rxData := ep.rxData ++ [a, b], rcvNxt := ep.rcvNxt + 2 }, 0) := by
  have hw : (tcpWindow ep).toNat = 65534 - ep.rxLength := by
    rw [tcpWindow_toNat ep (by rw [hlen]; simp [tcpRxBufferMax]; omega), hlen]
    simp [tcpRxBufferMax]
    omega
  have hW : (tcpWindow ep).toUInt32.toNat = 65534 - ep.rxLength := by rw [UInt16.toNat_toUInt32, hw]
  -- the segment starts at rcv_nxt, inside a window of at least one
  have hseq : sequenceAcceptable ep ⟨ep.rcvNxt, ep.sndUna, tcpFlagAck, [a, b]⟩ = true := by
    have hne : tcpWindow ep ≠ 0 := fun h0 => by rw [h0] at hw; simp at hw; omega
    have hb : seqBefore ep.rcvNxt (ep.rcvNxt + (tcpWindow ep).toUInt32) = true := by
      simpa using seqBefore_add_add ep.rcvNxt (i := 0) (by rw [hW]; simp; omega) (by rw [hW]; simp; omega)
    simp [sequenceAcceptable, hne, hb]
  have hne : ep.rcvNxt + 1 ≠ ep.rcvNxt + 2 := by grind
  rw [tcpInput_established_data ep _ hstate rfl hseq rfl hnxt (List.cons_ne_nil _ _),
    tcpInputData_at ep ⟨ep.rcvNxt, ep.sndUna, tcpFlagAck, [a, b]⟩ rfl rfl (List.cons_ne_nil _ _)
      (by simp [tcpRxBufferMax]; omega)]
  have hdrain : tcpDrainOoo { ep with rxData := ep.rxData ++ [a, b], rcvNxt := ep.rcvNxt + [a, b].length.toUInt32 } =
      { ep with rxData := ep.rxData ++ [a, b], rcvNxt := ep.rcvNxt + 2 } :=
    tcpDrainOoo_of_head hhead hne
  rw [hdrain]

/-- With two bytes of room left, the byte after rcv_nxt is queued out of
order; the two bytes from rcv_nxt are then accepted in order, since the
check only counts the RX bytes.  The buffer then holds one byte more than
TCP_RX_BUFFER_MAX, tcp_window wraps to 65535, and the queued record lies
before rcv_nxt, where tcp_drain_ooo never takes it. -/
theorem tcpInput_overfills_rx_buffer (ep : TcpEndpoint) (hstate : ep.state = .established)
    (hrx : ep.rxLength = 65533) (hnil : ep.oooHead = []) (hlen : ep.oooLength = 0) (hcount : ep.oooCount = 0)
    (hnxt : seqAfter ep.sndUna ep.sndNxt = false) (a b : UInt8) :
    let ep₁ := (tcpInput ep ⟨ep.rcvNxt + 1, ep.sndUna, tcpFlagAck, [b]⟩).1
    let ep₂ := (tcpInput ep₁ ⟨ep.rcvNxt, ep.sndUna, tcpFlagAck, [a, b]⟩).1
    RxFits ep ∧ RxFits ep₁ ∧
    ep₂.rxLength + ep₂.oooLength.toNat = tcpRxBufferMax.toNat + 1 ∧ tcpWindow ep₂ = 65535 ∧
    ep₂.oooHead = [⟨ep.rcvNxt + 1, [b], false⟩] ∧ seqBefore (ep.rcvNxt + 1) ep₂.rcvNxt = true := by
  intro ep₁ ep₂
  have h1 : ep₁ = { ep with oooHead := [⟨ep.rcvNxt + 1, [b], false⟩], oooCount := 1, oooLength := 1 } := by
    simp only [ep₁]
    rw [tcpInput_queue_next hstate hnil hlen hcount (by omega) hnxt b]
  have h2 : ep₂ = { ep with
      oooHead := [⟨ep.rcvNxt + 1, [b], false⟩]
      oooCount := 1
      oooLength := 1
      rxData := ep.rxData ++ [a, b]
      rcvNxt := ep.rcvNxt + 2 } := by
    have h := tcpInput_cover_queued { ep with oooHead := [⟨ep.rcvNxt + 1, [b], false⟩], oooCount := 1, oooLength := 1 }
      hstate b rfl rfl (by simp only [TcpEndpoint.rxLength] at hrx ⊢; omega) hnxt a
    simp only [ep₂, h1]
    rw [h]
  have hafter : seqAfter (ep.rcvNxt + 1) ep.rcvNxt = true := by
    simpa using seqAfter_add_add ep.rcvNxt (i := 0) (j := 1) (by decide) (by decide)
  have hrx₂ : ep₂.rxLength = 65535 := by
    rw [h2]
    simp only [TcpEndpoint.rxLength, List.length_append] at hrx ⊢
    rw [hrx]
    rfl
  have hooo₂ : ep₂.oooLength = 1 := by rw [h2]
  refine ⟨⟨by rw [hrx, hlen]; decide, by simp [hnil]⟩, ⟨?_, ?_⟩, ?_, ?_, by rw [h2], ?_⟩
  · rw [h1]
    simp only [TcpEndpoint.rxLength] at hrx ⊢
    rw [hrx]
    decide
  · rw [h1]
    simpa using hafter
  · rw [hrx₂, hooo₂]
    decide
  · simp only [tcpWindow, hrx₂, hooo₂]
    decide
  · rw [h2]
    simpa using seqBefore_add_add ep.rcvNxt (i := 1) (j := 2) (by decide) (by decide)

/-- An established endpoint whose application has left 65533 bytes
unread. -/
def nearlyFullEndpoint : TcpEndpoint :=
  ⟨.established, 7000, 7000, 3000, List.replicate 65533 0, 0, 0, [], []⟩

theorem tcpInput_overfills_rx_buffer_nearly_full :
    nearlyFullEndpoint.state = .established ∧ nearlyFullEndpoint.rxLength = 65533 ∧
    nearlyFullEndpoint.oooHead = [] ∧ nearlyFullEndpoint.oooLength = 0 ∧ nearlyFullEndpoint.oooCount = 0 ∧
    seqAfter nearlyFullEndpoint.sndUna nearlyFullEndpoint.sndNxt = false ∧
    let ep₁ := (tcpInput nearlyFullEndpoint
      ⟨nearlyFullEndpoint.rcvNxt + 1, nearlyFullEndpoint.sndUna, tcpFlagAck, [0x62]⟩).1
    let ep₂ := (tcpInput ep₁ ⟨nearlyFullEndpoint.rcvNxt, nearlyFullEndpoint.sndUna, tcpFlagAck, [0x61, 0x62]⟩).1
    RxFits nearlyFullEndpoint ∧ RxFits ep₁ ∧
    ep₂.rxLength + ep₂.oooLength.toNat = tcpRxBufferMax.toNat + 1 ∧ tcpWindow ep₂ = 65535 ∧
    ep₂.oooHead = [⟨nearlyFullEndpoint.rcvNxt + 1, [0x62], false⟩] ∧
    seqBefore (nearlyFullEndpoint.rcvNxt + 1) ep₂.rcvNxt = true := by
  have hrx : nearlyFullEndpoint.rxLength = 65533 := List.length_replicate
  have hnxt : seqAfter nearlyFullEndpoint.sndUna nearlyFullEndpoint.sndNxt = false := seqAfter_self _
  exact ⟨rfl, hrx, rfl, rfl, rfl, hnxt,
    tcpInput_overfills_rx_buffer nearlyFullEndpoint rfl hrx rfl rfl rfl hnxt 0x61 0x62⟩

end Uinxed.Tcp
