import XlioTcp.Shrink
import XlioTcp.Ooseq

/-! `tcp_receive`: acknowledgment processing (window update, duplicate and new ACKs, the two
retransmit queues, the RTT sample), then delivery of in-sequence data and queueing of
out-of-sequence data. -/
namespace XlioTcp

def ccApply (pcb : Pcb) (r : U32 × U32) : Pcb := { pcb with cwnd := r.1, ssthresh := r.2 }

/-- Step 1 of the ACK processing: the window update. Returns the PCB and `persist`, whether a
zero window has just been entered while no persist backoff runs. -/
def tcpWindowUpdate (pcb : Pcb) (d : InData) : Pcb × Bool :=
  let wnd := pcb.sndWndScale d.tcphdr.wnd
  if tcpSeqLt pcb.sndWl1 d.seqno || (pcb.sndWl1 == d.seqno && tcpSeqLt pcb.sndWl2 d.ackno) ||
      (pcb.sndWl2 == d.ackno && wnd > pcb.sndWnd) then
    ({ pcb with
      sndWnd := wnd, sndWndMax := if pcb.sndWndMax < wnd then wnd else pcb.sndWndMax,
      sndWl1 := d.seqno, sndWl2 := d.ackno,
      persistBackoff := if wnd = 0 then pcb.persistBackoff
        else if pcb.persistBackoff > 0 then 0 else pcb.persistBackoff },
     wnd = 0 && pcb.persistBackoff = 0)
  else (pcb, false)

/-- An old or duplicate ACK (`ackno <= lastack`): Stevens' five clauses, fast retransmit on
the third duplicate, window inflation after it. `rightWndEdge` is the window's right edge
before the update. -/
def tcpDupAck (cfg : Config) (c : Ctx) (rightWndEdge : U32) : Ctx :=
  let pcb := { c.pcb with acked := 0 }
  if c.d.tcplen = 0 && pcb.sndWl2 + pcb.sndWnd == rightWndEdge && decide (0 ≤ pcb.rtime.toInt)
      && pcb.lastack == c.d.ackno then
    let dupacks := if pcb.dupacks + 1 > pcb.dupacks then pcb.dupacks + 1 else pcb.dupacks
    let pcb := { pcb with dupacks := dupacks }
    if dupacks > 3 then { c with pcb := ccApply pcb (cfg.cc.ackReceived pcb .dupack) }
    else if dupacks = 3 then
      { c with pcb := ccApply pcb (cfg.cc.ackReceived pcb .none) }.emit .rexmitFast
    else { c with pcb := pcb }
  else { c with pcb := { pcb with dupacks := 0 } }

/-- An ACK for new data (`lastack < ackno <= snd_nxt`): leave fast recovery, credit the
acknowledged bytes, trim `unacked`, and restart or stop the retransmit timer. -/
def tcpNewAck (cfg : Config) (c : Ctx) (persist : Bool) : Option Ctx := do
  let pcb := c.pcb
  let pcb := if pcb.flags.infr then
      { ccApply pcb (cfg.cc.postRecovery pcb) with flags := { pcb.flags with infr := false } }
    else pcb
  let acked := c.d.ackno - pcb.lastack
  let pcb := { pcb with
    nrtx := 0, rto := pcb.sa.sshiftRight 3 + pcb.sv, acked := acked, sndBuf := pcb.sndBuf + acked,
    dupacks := 0, lastack := c.d.ackno }
  let pcb := if pcb.state.toNat ≥ TcpState.established.toNat then
      ccApply pcb (cfg.cc.ackReceived pcb .ack) else pcb
  let (pcb, unacked) ← ackPartialOrWholeSegment pcb c.d.ackno pcb.unacked
  let pcb := if unacked = [] then
      { pcb with
        unacked := unacked, rtime := -1, ticksSinceDataSent := -1,
        persistCnt := if persist then 0 else pcb.persistCnt,
        persistBackoff := if persist then 1 else pcb.persistBackoff }
    else { pcb with unacked := unacked, rtime := 0, ticksSinceDataSent := 0 }
  some { c with pcb := pcb }

/-- Step 4: an RTT sample when the segment timed by `rttest` is acknowledged (Van Jacobson's
fixed-point filter, gain 1/8 on the mean and 1/4 on the deviation, in `s16_t`). -/
def tcpRttSample (env : Env) (c : Ctx) : Ctx :=
  let pcb := c.pcb
  if pcb.rttest ≠ 0 && tcpSeqLt pcb.rtseq c.d.ackno then
    let m : S16 := (env.ticks - pcb.rttest).setWidth 16
    let m := m - pcb.sa.sshiftRight 3
    let sa := pcb.sa + m
    let m := if m.toInt < 0 then -m else m
    let m := m - pcb.sv.sshiftRight 2
    let sv := pcb.sv + m
    { c with pcb := { pcb with
      tRttupdated := pcb.tRttupdated + 1, sa := sa, sv := sv, rto := sa.sshiftRight 3 + sv,
      rttest := 0 } }
  else c

/-- Steps 2 and 3: an old or duplicate ACK, an ACK for new data, or one for data never sent
("out of sequence ACK, didn't really ack anything"), answered by an empty ACK. -/
def tcpAckClassify (cfg : Config) (c : Ctx) (rightWndEdge : U32) (persist : Bool) : Option Ctx :=
  if tcpSeqLeq c.d.ackno c.pcb.lastack then some (tcpDupAck cfg c rightWndEdge)
  else if tcpSeqBetween c.d.ackno (c.pcb.lastack + 1) c.pcb.sndNxt then tcpNewAck cfg c persist
  else some ({ c with pcb := { c.pcb with acked := 0 } }.emit .sendEmptyAck)

def tcpAckUnsent (c : Ctx) : Option Ctx :=
  (fun r => { c with pcb := { r.1 with unsent := r.2 } }) <$>
    ackPartialOrWholeSegment c.pcb c.d.ackno c.pcb.unsent

/-- The ACK processing of `tcp_receive` (the `in_data->flags & TCP_ACK` branch). -/
def tcpReceiveAck (cfg : Config) (env : Env) (c : Ctx) : Option Ctx := do
  let w := tcpWindowUpdate c.pcb c.d
  let c ← tcpAckClassify cfg { c with pcb := w.1 } (c.pcb.sndWnd + c.pcb.sndWl2) w.2
  let c ← tcpAckUnsent c
  some (tcpRttSample env c)

/-- The `while (p->len < off)` loop of the left-edge trim: fragments wholly below the new
start are emptied and given the chain's new `tot_len`; `none` if it runs off the chain. -/
def trimLeftWalk (newTotLen off : U32) : List Pbuf → Option (List Pbuf)
  | [] => none
  | q :: qs =>
    if q.len < off then ({ q with totLen := newTotLen, len := 0 } :: ·) <$> trimLeftWalk newTotLen (off - q.len) qs
    else some (pbufHeaderHide q off :: qs)

def trimLeft (p : List Pbuf) (off : U32) : Option (List Pbuf) :=
  match p with
  | [] => none
  | q :: qs =>
    if q.len < off then trimLeftWalk (q.totLen - off) off (q :: qs) else some (pbufHeaderHide q off :: qs)

/-- Phase B, step 1: a segment straddling `rcv_nxt` loses its already-received prefix; one
wholly below `rcv_nxt` is a duplicate and is acknowledged at once. -/
def tcpTrimLeftEdge (c : Ctx) : Option Ctx :=
  let d := c.d
  let rcvNxt := c.pcb.rcvNxt
  if tcpSeqBetween rcvNxt (d.seqno + 1) (d.seqno + d.tcplen.setWidth 32 - 1) then
    (fun p => { c with d := { d with
      seqno := rcvNxt,
      inseg := { d.inseg with
        p := p, len := d.inseg.len - (rcvNxt - d.seqno),
        tcphdr := { d.inseg.tcphdr with seqno := rcvNxt } } } }) <$> trimLeft d.inseg.p (rcvNxt - d.seqno)
  else if tcpSeqLt d.seqno rcvNxt then some c.ackNow
  else some c

/-- An in-sequence segment longer than the window is cut at its right edge, FIN dropped. -/
def tcpTrimToWindow (c : Ctx) : Option Ctx :=
  let d := c.d
  let tcplen := d.inseg.tcplen.setWidth 16
  if tcplen.setWidth 32 > c.pcb.rcvWnd then
    let seg := d.inseg.setFin false
    let len := if seg.tcphdr.flags.syn then c.pcb.rcvWnd - 1 else c.pcb.rcvWnd
    (fun p => let seg := { seg with len := len, p := p }
      { c with d := { d with inseg := seg, tcplen := seg.tcplen.setWidth 16 } }) <$> pbufRealloc seg.p len
  else some { c with d := { d with tcplen := tcplen } }

/-- The `while` loop reconciling an in-sequence segment with `ooseq`: entries it covers are
freed, and a FIN among them passes to the segment unless it is a SYN. -/
def inseqDropCovered (seqno : U32) (seg : TcpSeg) (tcplen : U16) :
    List TcpSeg → TcpSeg × U16 × List TcpSeg
  | [] => (seg, tcplen, [])
  | next :: rest =>
    if tcpSeqGeq (seqno + tcplen.setWidth 32) (next.start + next.len) then
      if next.tcphdr.flags.fin && !seg.tcphdr.flags.syn then
        inseqDropCovered seqno (seg.setFin true) ((seg.setFin true).tcplen.setWidth 16) rest
      else inseqDropCovered seqno seg tcplen rest
    else (seg, tcplen, next :: rest)

/-- Phase B, in-sequence step: an in-order FIN bins `ooseq`; otherwise covered entries go and
the segment is cut where the first remaining entry starts. -/
def tcpTrimToOoseq (c : Ctx) : Option Ctx :=
  if c.pcb.ooseq = [] then some c
  else if c.d.inseg.tcphdr.flags.fin then some { c with pcb := { c.pcb with ooseq := [] } }
  else match inseqDropCovered c.d.seqno c.d.inseg c.d.tcplen c.pcb.ooseq with
    | (seg, tcplen, n :: rest) =>
      if tcpSeqGt (c.d.seqno + tcplen.setWidth 32) n.start then
        let len := n.start - c.d.seqno
        let len := if seg.tcphdr.flags.syn then len - 1 else len
        (fun p => let seg := { seg with len := len, p := p }
          { c with pcb := { c.pcb with ooseq := n :: rest },
                   d := { c.d with inseg := seg, tcplen := seg.tcplen.setWidth 16 } }) <$>
          pbufRealloc seg.p len
      else some { c with pcb := { c.pcb with ooseq := n :: rest },
                         d := { c.d with inseg := seg, tcplen := tcplen } }
    | (seg, tcplen, []) =>
      some { c with pcb := { c.pcb with ooseq := [] }, d := { c.d with inseg := seg, tcplen := tcplen } }

/-- One pass of the drain loop: `cseg`, now in sequence, moves `rcv_nxt` and `rcv_wnd` and
is chained onto `recv_data`; a FIN on it is reported and forces CLOSE_WAIT from ESTABLISHED. -/
def drainStep (cseg : TcpSeg) (c : Ctx) : Ctx :=
  let fin := cseg.tcphdr.flags.fin
  { c with
    pcb := { c.pcb with
      rcvNxt := c.pcb.rcvNxt + cseg.tcplen, rcvWnd := c.pcb.rcvWnd - cseg.tcplen,
      state := if fin && c.pcb.state = .established then .closeWait else c.pcb.state },
    d := { c.d with
      seqno := cseg.start,
      recvData := if chainTotLen cseg.p > 0 then
          (if c.d.recvData = [] then cseg.p else pbufCat c.d.recvData cseg.p)
        else c.d.recvData,
      recvFlags := if fin then { c.d.recvFlags with gotFin := true } else c.d.recvFlags } }

def tcpDrainOoseq : List TcpSeg → Ctx → Ctx
  | [], c => { c with pcb := { c.pcb with ooseq := [] } }
  | cseg :: rest, c =>
    if cseg.start = c.pcb.rcvNxt then tcpDrainOoseq rest (drainStep cseg c)
    else { c with pcb := { c.pcb with ooseq := cseg :: rest } }

def tcpQuickack (cfg : Config) (pcb : Pcb) (d : InData) : Bool :=
  pcb.quickack && (cfg.quickackThreshold = 0 || d.tcplen ≤ cfg.quickackThreshold)

/-- An in-sequence segment is accepted: `rcv_nxt` moves past it, `rcv_wnd` shrinks by it, its
payload becomes `recv_data`, and a FIN on it is reported. -/
def tcpAcceptInSeq (c : Ctx) : Ctx :=
  let d := c.d
  let t := d.tcplen.setWidth 32
  let delivered := chainTotLen d.inseg.p > 0
  { c with
    pcb := { c.pcb with rcvNxt := d.seqno + t, rcvWnd := c.pcb.rcvWnd - t },
    d := { d with
      recvData := if delivered then d.inseg.p else d.recvData,
      inseg := if delivered then { d.inseg with p := [] } else d.inseg,
      recvFlags := if d.inseg.tcphdr.flags.fin then { d.recvFlags with gotFin := true }
        else d.recvFlags } }

/-- The acknowledgment of delivered data: at once for a chain of several buffers or when
`tcp_quickack` says so, delayed otherwise. -/
def tcpAckDelivered (cfg : Config) (c : Ctx) : Ctx :=
  if c.d.recvData.length > 1 || tcpQuickack cfg c.pcb c.d then c.ackNow else c.ack

def tcpReceiveInSeq (cfg : Config) (c : Ctx) : Option Ctx := do
  let c ← tcpTrimToWindow c
  let c ← tcpTrimToOoseq c
  let c := tcpAcceptInSeq c
  some (tcpAckDelivered cfg (tcpDrainOoseq c.pcb.ooseq c))

def tcpReceiveOoseq (env : Env) (c : Ctx) : Option Ctx :=
  let c := c.emit .sendEmptyAck
  if c.pcb.ooseq = [] then
    some { c with pcb := { c.pcb with ooseq := if env.segCopyOk then [c.d.inseg] else [] } }
  else
    (fun (q, t) => { c with pcb := { c.pcb with ooseq := q }, d := { c.d with tcplen := t } }) <$>
      ooseqPlace env (c.pcb.rcvNxt + c.pcb.rcvWnd) c.d none c.pcb.ooseq

/-- Phase B of `tcp_receive`, for a segment with payload or FIN before CLOSE_WAIT. -/
def tcpReceiveData (cfg : Config) (env : Env) (c : Ctx) : Option Ctx := do
  let c ← tcpTrimLeftEdge c
  if tcpSeqBetween c.d.seqno c.pcb.rcvNxt (c.pcb.rcvNxt + c.pcb.rcvWnd - 1) then
    if c.pcb.rcvNxt = c.d.seqno then tcpReceiveInSeq cfg c else tcpReceiveOoseq env c
  else some (c.emit .sendEmptyAck)

def tcpReceive (cfg : Config) (env : Env) (c : Ctx) : Option Ctx :=
  (if c.d.flags.ack then tcpReceiveAck cfg env c else some c).bind fun c =>
    if c.d.tcplen > 0 && decide (c.pcb.state.toNat < TcpState.closeWait.toNat) then
      tcpReceiveData cfg env c
    else if tcpSeqBetween c.d.seqno c.pcb.rcvNxt (c.pcb.rcvNxt + c.pcb.rcvWnd - 1) then some c
    else some c.ackNow

end XlioTcp
