import XlioTcp.AckEffects

/-! Reassembly: the out-of-order queue and the receive window. `OoseqOk` is the
representation invariant of `ooseq`, `WndOk` the window invariant; both are stated in
offsets from `rcv_nxt`, the only base in which sequence comparisons are an order. -/
namespace XlioTcp

/-- The invariant of `ooseq` from one entry on (offsets from `r = rcv_nxt`): each entry starts
at or after `lo` and less than `2^31` after `r`, holds a byte or a FIN, carries FIN only when
it is the last, and the next one starts at or after its end. -/
def OoseqFrom (r : U32) : Nat → List TcpSeg → Prop
  | _, [] => True
  | lo, e :: rest =>
    lo ≤ seqOff r e.start ∧ seqOff r e.start < 2^31 ∧ 0 < e.tcplen.toNat ∧
      (e.tcphdr.flags.fin = true → rest = []) ∧ OoseqFrom r (seqOff r e.start + e.len.toNat) rest

instance OoseqFrom.decidable (r : U32) : ∀ lo q, Decidable (OoseqFrom r lo q)
  | _, [] => isTrue trivial
  | lo, e :: rest =>
    have := OoseqFrom.decidable r (seqOff r e.start + e.len.toNat) rest
    inferInstanceAs (Decidable (lo ≤ seqOff r e.start ∧ seqOff r e.start < 2^31 ∧
      0 < e.tcplen.toNat ∧ (e.tcphdr.flags.fin = true → rest = []) ∧
      OoseqFrom r (seqOff r e.start + e.len.toNat) rest))

/-- The representation invariant of `pcb->ooseq`: the first entry starts after `rcv_nxt`. -/
def OoseqOk (pcb : Pcb) : Prop := OoseqFrom pcb.rcvNxt 1 pcb.ooseq

instance : DecidablePred OoseqOk := fun _ => OoseqFrom.decidable _ _ _

/-- The window invariant: `rcv_wnd` is at most `rcv_wnd_max`, and every entry of `ooseq` ends
inside the window. -/
def WndOk (pcb : Pcb) : Prop :=
  pcb.rcvWnd ≤ pcb.rcvWndMax ∧
    ∀ e ∈ pcb.ooseq, seqOff pcb.rcvNxt e.start + e.tcplen.toNat ≤ pcb.rcvWnd.toNat

instance : DecidablePred WndOk := fun _ => inferInstanceAs (Decidable (_ ∧ _))

/-- A segment from the peer as `L3_level_tcp_input` sets it up: `n` bytes of payload from
`seqno` in one buffer, acknowledging `ackno`. -/
def dataIn (seqno ackno : U32) (flags : TcpFlags) (n : Nat) : InData :=
  let h : TcpHdr :=
    { src := 80, dest := 4000, seqno := seqno, ackno := ackno, hdrlen := 5, flags := flags, wnd := 1000 }
  { tcphdr := h, seqno := seqno, ackno := ackno, flags := flags,
    tcplen := BitVec.ofNat 16 n + if flags.fin || flags.syn then 1 else 0,
    inseg := ⟨[⟨List.replicate n 7, BitVec.ofNat 32 n, BitVec.ofNat 32 n, false⟩], h, seqno,
      BitVec.ofNat 32 n, false, flags⟩ }

def smallWndPcb : Pcb :=
  { state := .established, rcvNxt := 1000, rcvWnd := 10, rcvWndMax := 10, sndNxt := 0, lastack := 0 }

/-- The peer overruns the window: 10 bytes at 1005 go to `ooseq` whole, past the window's end;
5 bytes at 1000 then drain them, and `rcv_wnd` wraps. -/
theorem ooseq_overrun_wraps_rcvWnd :
    WndOk smallWndPcb ∧
      (inputRunPcb {} (some smallWndPcb)
          [({}, dataIn 1005 0 { ack := true } 10), ({}, dataIn 1000 0 { ack := true } 5)]).map
        (·.map fun p => (p.rcvNxt, p.rcvWnd, decide (WndOk p))) = some (some (1015, -5, false)) := by
  decide

def synRcvdPcb : Pcb :=
  { state := .synRcvd, rcvNxt := 1000, rcvWnd := 100, rcvWndMax := 100, sndNxt := 501,
    lastack := 500, sndQueuelen := 1,
    unacked := [⟨[⟨[], 0, 0, false⟩], { sampleFinHdr with flags := { syn := true, ack := true } },
      500, 0, false, { syn := true, ack := true }⟩] }

/-- A SYN|ACK that establishes the connection out of order puts an entry with SYN on `ooseq`;
the entry after it starts at its `seqno + len`, but the drain moves `rcv_nxt` by its
`TCP_TCPLEN`, one more, and leaves that entry behind `rcv_nxt`. -/
theorem ooseq_syn_entry_strands_next :
    OoseqOk synRcvdPcb ∧
      (inputRunPcb {} (some synRcvdPcb)
          [({}, dataIn 1010 501 { syn := true, ack := true } 10),
            ({}, dataIn 1020 501 { ack := true } 10), ({}, dataIn 1000 501 { ack := true } 10)]).map
        (·.map fun p => (p.rcvNxt, p.ooseq.map (·.start), decide (OoseqOk p))) =
        some (some (1021, [1020], false)) := by
  decide

def wideWndPcb : Pcb := { smallWndPcb with rcvWnd := 100, rcvWndMax := 100 }

/-- Twenty bytes at 1010 are buffered; five bytes at 1015, inside them, are appended after
them, and the tail append cuts the buffered entry at 1015: bytes 1020 to 1029 are lost. -/
theorem ooseq_tail_insert_loses_bytes :
    (inputRunPcb {} (some wideWndPcb) [({}, dataIn 1010 0 { ack := true } 20)]).map
        (·.map fun p => p.ooseq.map fun e => (e.start, e.len)) = some (some [(1010, 20)]) ∧
      (inputRunPcb {} (some wideWndPcb)
          [({}, dataIn 1010 0 { ack := true } 20), ({}, dataIn 1015 0 { ack := true } 5)]).map
        (·.map fun p => (p.rcvNxt, p.ooseq.map fun e => (e.start, e.len))) =
        some (some (1000, [(1010, 5), (1015, 5)])) := by
  decide

end XlioTcp
