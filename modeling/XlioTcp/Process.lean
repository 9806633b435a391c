import XlioTcp.Receive
import XlioTcp.Options

/-! `tcp_process`: the connection state machine of a synchronized or synchronizing PCB. -/
namespace XlioTcp

/-- Modelled from the spec: `tcp_pcb_purge` of `tcp.c` ("purge retransmit state") frees the
three queues and stops the retransmission timer of a PCB that is not CLOSED, LISTEN or
TIME_WAIT. -/
def Pcb.purge (pcb : Pcb) : Pcb :=
  if pcb.state = .closed || pcb.state = .timeWait || pcb.state = .listen then pcb
  else { pcb with ooseq := [], rtime := -1, unsent := [], unacked := [] }

namespace Ctx

def setState (c : Ctx) (s : TcpState) : Ctx := { c with pcb := { c.pcb with state := s } }

def gotFin (c : Ctx) : Bool := c.d.recvFlags.gotFin

/-- `in_data->flags & TCP_ACK && in_data->ackno == pcb->snd_nxt`: the guard the FIN-sent
states read as "our FIN is acknowledged". -/
def ackedSndNxt (c : Ctx) : Bool := c.d.flags.ack && c.d.ackno == c.pcb.sndNxt

/-- `tcp_rst(ackno, seqno + tcplen, ...)` answering the segment. -/
def rstReply (c : Ctx) (seqno : U32) : Ctx :=
  c.emit (.rst seqno (c.d.seqno + c.d.tcplen.setWidth 32) c.d.tcphdr.dest c.d.tcphdr.src)

end Ctx

/-- The RST test of `tcp_process`: in SYN_SENT the ACK must match `snd_nxt`, elsewhere the
sequence number must lie in `[rcv_nxt, rcv_nxt + rcv_wnd]`. -/
def rstAcceptable (pcb : Pcb) (d : InData) : Bool :=
  if pcb.state = .synSent then d.ackno == pcb.sndNxt
  else tcpSeqBetween d.seqno pcb.rcvNxt (pcb.rcvNxt + pcb.rcvWnd)

/-- The SYN|ACK for our SYN: the connection is established, the peer's window and MSS are
taken, congestion control starts, and the SYN leaves `unacked`. -/
def tcpSynSentEstablish (cfg : Config) (env : Env) (c : Ctx) : Ctx × ErrT :=
  let pcb := c.pcb
  let d := c.d
  let pcb := { pcb with
    rcvNxt := d.seqno + 1, rcvAnnRightEdge := d.seqno + 1, lastack := d.ackno,
    sndWnd := pcb.sndWndScale d.tcphdr.wnd, sndWndMax := pcb.sndWndScale d.tcphdr.wnd,
    sndWl1 := d.seqno - 1, state := .established }
  let pcb := pcb.updateByMss (if pcb.mss ≤ env.sendMss then pcb.mss else env.sendMss)
  let pcb := { pcb with ssthresh := pcb.mss.setWidth 32 * 10 }
  let pcb := ccApply pcb (cfg.cc.connInit pcb)
  let pcb := { pcb with sndQueuelen := pcb.sndQueuelen - 1, unacked := pcb.unacked.tail }
  let pcb := if pcb.unacked = [] then { pcb with rtime := -1, ticksSinceDataSent := -1 }
    else { pcb with rtime := 0, ticksSinceDataSent := 0, nrtx := 0 }
  let c := { c with pcb := pcb }.emit .connected
  if env.connectedErr = .abrt then (c, .abrt) else (c.ackNow, .ok)

/-- SYN_SENT: a SYN|ACK for our SYN establishes the connection; a bare ACK is answered with
a RST. `pcb->unacked->seqno` is read with `unacked` possibly empty: `none`, a NULL
dereference. -/
def tcpProcessSynSent (cfg : Config) (env : Env) (c : Ctx) : Option (Ctx × ErrT) :=
  if c.d.flags.ack && c.d.flags.syn then
    c.pcb.unacked.head?.map fun rseg =>
      if c.d.ackno = rseg.seqno + 1 then tcpSynSentEstablish cfg env c
      else (c.rstReply c.d.ackno, .ok)
  else if c.d.flags.ack then some (c.rstReply c.d.ackno, .ok)
  else some (c, .ok)

/-- The ACK completing a passive open, after the accept upcall: the rest of the segment goes
through `tcp_receive`, the SYN's byte is not reported as sent data, congestion control
starts, and a FIN that came with it moves on to CLOSE_WAIT. -/
def tcpSynRcvdAccepted (cfg : Config) (env : Env) (c : Ctx) : Option Ctx :=
  (tcpReceive cfg env c).map fun c' =>
    let pcb := { c'.pcb with acked := if c'.pcb.acked ≠ 0 then c'.pcb.acked - 1 else 0 }
    let pcb := { pcb with cwnd := c.pcb.cwnd }
    let c' := { c' with pcb := ccApply pcb (cfg.cc.connInit pcb) }
    if c'.gotFin then c'.ackNow.setState .closeWait else c'

/-- SYN_RCVD: an ACK in `(lastack, snd_nxt]` establishes the connection and fires the accept
upcall; a bad ACK is answered with a RST; a retransmitted SYN retransmits our SYN|ACK. -/
def tcpProcessSynRcvd (cfg : Config) (env : Env) (c : Ctx) : Option (Ctx × ErrT) :=
  let d := c.d
  if d.flags.ack then
    if tcpSeqBetween d.ackno (c.pcb.lastack + 1) c.pcb.sndNxt then
      let c := (c.setState .established).emit .accept
      if env.acceptErr ≠ .ok then
        some (if env.acceptErr = .abrt then c else c.emit .abort, .abrt)
      else (·, .ok) <$> tcpSynRcvdAccepted cfg env c
    else some (c.rstReply d.ackno, .ok)
  else if d.flags.syn && d.seqno == c.pcb.rcvNxt - 1 then some (c.emit .rexmit, .ok)
  else some (c, .ok)

/-- The move a synchronized state `st` makes after `tcp_receive`: on the peer's FIN, or on
the ACK of ours (`ackno == snd_nxt`). -/
def tcpSyncedTransition (st : TcpState) (c : Ctx) : Ctx :=
  match st with
  | .established | .closeWait => if c.gotFin then c.ackNow.setState .closeWait else c
  | .finWait1 =>
    if c.gotFin then
      if c.ackedSndNxt then { c.ackNow with pcb := c.ackNow.pcb.purge }.setState .timeWait
      else c.ackNow.setState .closing
    else if c.ackedSndNxt then c.setState .finWait2 else c
  | .finWait2 => if c.gotFin then { c.ackNow with pcb := c.ackNow.pcb.purge }.setState .timeWait else c
  | .closing => if c.ackedSndNxt then { c with pcb := c.pcb.purge }.setState .timeWait else c
  | .lastAck =>
    if c.ackedSndNxt then { c with d := { c.d with recvFlags := { c.d.recvFlags with closed := true } } }
    else c
  | _ => c

/-- The synchronized states: run `tcp_receive`, then move on a FIN or on the ACK of ours. -/
def tcpProcessSynced (cfg : Config) (env : Env) (c : Ctx) : Option Ctx :=
  (tcpReceive cfg env c).map (tcpSyncedTransition c.pcb.state)

/-- What `tcp_process` does before the state switch: restart the keepalive timer (unless the
receive side is shut), reset the keepalive count, and parse the options. -/
def tcpProcessPrepare (cfg : Config) (env : Env) (c : Ctx) : Ctx :=
  let pcb := if c.pcb.flags.rxclosed then c.pcb else { c.pcb with tmr := env.ticks }
  { c with pcb := tcpParseopt cfg c.d { pcb with keepCntSent := 0 } }

/-- The state switch of `tcp_process`. -/
def tcpProcessState (cfg : Config) (env : Env) (c : Ctx) : Option (Ctx × ErrT) :=
  match c.pcb.state with
  | .synSent => tcpProcessSynSent cfg env c
  | .synRcvd => tcpProcessSynRcvd cfg env c
  | .established | .closeWait | .finWait1 | .finWait2 | .closing | .lastAck =>
    (·, .ok) <$> tcpProcessSynced cfg env c
  | _ => some (c, .ok)

/-- `tcp_process(pcb, in_data)`: RST handling, a SYN in a synchronized state, then the state
machine. `none` is a crash. -/
def tcpProcess (cfg : Config) (env : Env) (c : Ctx) : Option (Ctx × ErrT) :=
  let pcb := c.pcb
  let d := c.d
  if d.flags.rst then
    if rstAcceptable pcb d then
      some ({ c with
        d := { d with recvFlags := { d.recvFlags with reset := true } },
        pcb := { pcb with flags := { pcb.flags with ackDelay := false } } }, .rst)
    else some (c, .ok)
  else if d.flags.syn && pcb.state ≠ .synSent && pcb.state ≠ .synRcvd then some (c.ackNow, .ok)
  else tcpProcessState cfg env (tcpProcessPrepare cfg env c)

end XlioTcp
