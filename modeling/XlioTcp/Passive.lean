import XlioTcp.Process

/-! The handlers of the two non-active buckets: `tcp_listen_input` (passive open) and
`tcp_timewait_input` with `tcp_pcb_reuse` (RFC 6191 reuse of a TIME_WAIT PCB). -/
namespace XlioTcp

/-- The set-up shared by passive open and reuse, after the state and sequence numbers: parse
the SYN's options, then the windows from the configured and the advertised window. -/
def synWindows (cfg : Config) (d : InData) (pcb : Pcb) : Pcb :=
  let pcb := tcpParseopt cfg d pcb
  let w := tcpWndScaled cfg pcb
  let snd := pcb.sndWndScale d.tcphdr.wnd
  let pcb := { pcb with
    rcvWnd := w, rcvAnnWnd := w, rcvWndMax := w, rcvWndMaxDesired := w,
    sndWnd := snd, sndWndMax := snd, ssthresh := snd }
  pcb.updateByMss (if pcb.mss ≤ pcb.advtsdMss then pcb.mss else pcb.advtsdMss)

/-- `tcp_listen_input(pcb, in_data)`: the new PCB, if one was cloned, and the calls made. -/
def tcpListenInput (cfg : Config) (env : Env) (pcb : Pcb) (d : InData) : Option Pcb × List Event :=
  if d.flags.rst || d.flags.fin then (none, [])
  else if d.flags.ack then
    (none, [.rst (d.ackno + 1) (d.seqno + d.tcplen.setWidth 32) d.tcphdr.dest d.tcphdr.src])
  else if d.flags.syn then
    match env.clone with
    | none => (none, [])
    | some npcb =>
      let npcb := synWindows cfg d { npcb with
        isIpv6 := d.iphdr.isIpv6, localIp := d.iphdr.dest, localPort := pcb.localPort,
        remoteIp := d.iphdr.src, remotePort := d.tcphdr.src, state := .synRcvd,
        rcvNxt := d.seqno + 1, rcvAnnRightEdge := d.seqno + 1, sndWl1 := d.seqno - 1,
        soOptions := pcb.soOptions &&& cfg.sofInherited, sndScale := 0, rcvScale := 0,
        advtsdMss := env.sendMss }
      if env.synReceivedErr ≠ .ok then (some npcb, [.synReceived])
      else if env.enqueueErr = .ok then (some npcb, [.synReceived, .enqueueSynAck, .output, .acceptedPcb])
      else (some npcb, [.synReceived, .abandon, .acceptedPcb])
  else (none, [])

def tcpPcbReuse (cfg : Config) (env : Env) (c : Ctx) : Ctx × ErrT :=
  let d := c.d
  let pcb := synWindows cfg d { env.recycle c.pcb with
    state := .synRcvd, rcvNxt := d.seqno + 1, rcvAnnRightEdge := d.seqno + 1,
    sndWl1 := d.seqno - 1, mss := env.sendMss, advtsdMss := env.sendMss }
  let c := { c with pcb := pcb }.emit .synTwHandled
  if env.synTwHandledErr ≠ .ok then (c, env.synTwHandledErr)
  else if env.enqueueErr ≠ .ok then (c.emit .abandon, env.enqueueErr)
  else ((c.emit .enqueueSynAck).emit .output, .ok)

/-- The RFC 6191 test: a SYN may reuse the PCB when its timestamp is newer, or, timestamps not
in use or equal, when its sequence number is not below `rcv_nxt`; and a reuse callback is
registered. `ts` is what `tcp_parseopt_ts` found. -/
def twReusable (pcb : Pcb) (d : InData) (ts : Option U32) : Bool :=
  let found := ts.isSome && pcb.flags.timestamp
  let tsval := ts.getD 0
  ((found && pcb.tsRecent < tsval) || ((!found || pcb.tsRecent == tsval) && tcpSeqGeq d.seqno pcb.rcvNxt))
    && pcb.synTwHandledCb

/-- `tcp_timewait_input(pcb, in_data)`; `none` when the timestamp scan does not return. -/
def tcpTimewaitInput (cfg : Config) (env : Env) (c : Ctx) : Option (Ctx × ErrT) :=
  let d := c.d
  if d.flags.rst then some (c, .ok)
  else if d.flags.syn && !d.flags.ack then
    let optsLen : U16 := (d.tcphdr.hdrlen.setWidth 16 - 5) <<< 2
    (fun ts => if twReusable c.pcb d ts then tcpPcbReuse cfg env c else (c, .ok)) <$>
      tcpParseoptTs d.tcphdr.opts optsLen
  else
    let c := if d.flags.fin then { c with pcb := { c.pcb with tmr := env.ticks } } else c
    if d.tcplen > 0 then
      if d.flags.syn && d.flags.ack then some (c.rstReply d.ackno, .ok)
      else some (c.ackNow.emit .output, .ok)
    else some (c, .ok)

end XlioTcp
