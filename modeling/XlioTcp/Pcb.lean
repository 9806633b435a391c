import XlioTcp.Pbuf

/-! The connection control block, the queued segment and the per-packet context of the TCP
input path (`struct tcp_pcb`, `struct tcp_seg`, `tcp_in_data`), the collaborators the input
path calls out to, and the `tcp_impl.h` macros that read them. -/
namespace XlioTcp

/-- The six flag bits of a TCP header (`TCPH_FLAGS`), as named booleans. -/
structure TcpFlags where
  fin : Bool := false
  syn : Bool := false
  rst : Bool := false
  psh : Bool := false
  ack : Bool := false
  urg : Bool := false
  deriving DecidableEq, Repr

/-- The TCP header as the input path reads it, fields in host order. `opts` holds the
bytes after the fixed 20-byte header: the options area, then whatever follows it. -/
structure TcpHdr where
  src : U16
  dest : U16
  seqno : U32
  ackno : U32
  hdrlen : BitVec 4
  flags : TcpFlags
  wnd : U16
  opts : List UInt8 := []
  deriving DecidableEq, Repr

/-- `struct tcp_seg`; its `next` link is the list the segment sits in. -/
structure TcpSeg where
  p : List Pbuf
  tcphdr : TcpHdr
  seqno : U32
  len : U32
  /-- `flags & TF_SEG_OPTS_ZEROCOPY` -/
  zerocopy : Bool := false
  tcpFlags : TcpFlags
  deriving DecidableEq, Repr

namespace TcpSeg

/-- Modelled from the spec: `TCP_TCPLEN(seg)` of `tcp_impl.h`, the payload plus the SYN or
FIN pseudo-byte of the segment's header. -/
def tcplen (s : TcpSeg) : U32 := s.len + if s.tcphdr.flags.fin || s.tcphdr.flags.syn then 1 else 0

/-- Modelled from the spec: `TCP_SEGLEN(seg)`, the same count read from `tcp_flags`. -/
def seglen (s : TcpSeg) : U32 := s.len + if s.tcpFlags.fin || s.tcpFlags.syn then 1 else 0

/-- The header flags with FIN set or cleared (`TCPH_SET_FLAG`, `TCPH_FLAGS_SET`). -/
def setFin (s : TcpSeg) (b : Bool) : TcpSeg :=
  { s with tcphdr := { s.tcphdr with flags := { s.tcphdr.flags with fin := b } } }

/-- The segment's place in sequence space: its header's sequence number. -/
abbrev start (s : TcpSeg) : U32 := s.tcphdr.seqno

end TcpSeg

/-- Modelled from the spec: the states of `tcp.h` in lwIP's order, on which the comparisons
`< CLOSE_WAIT` and `>= ESTABLISHED` of `tcp_receive` depend. -/
inductive TcpState
  | closed | listen | synSent | synRcvd | established
  | finWait1 | finWait2 | closeWait | closing | lastAck | timeWait
  deriving DecidableEq, Repr

def TcpState.toNat : TcpState → Nat
  | .closed => 0 | .listen => 1 | .synSent => 2 | .synRcvd => 3 | .established => 4
  | .finWait1 => 5 | .finWait2 => 6 | .closeWait => 7 | .closing => 8 | .lastAck => 9
  | .timeWait => 10

/-- The PCB flags the input path reads or writes (`TF_ACK_DELAY`, `TF_ACK_NOW`, `TF_INFR`,
`TF_TIMESTAMP`, `TF_RXCLOSED`, `TF_WND_SCALE`). -/
structure PcbFlags where
  ackDelay : Bool := false
  ackNow : Bool := false
  infr : Bool := false
  timestamp : Bool := false
  rxclosed : Bool := false
  wndScale : Bool := false
  deriving DecidableEq, Repr

/-- `in_data->recv_flags`: `TF_RESET`, `TF_CLOSED`, `TF_GOT_FIN`. -/
structure RecvFlags where
  reset : Bool := false
  closed : Bool := false
  gotFin : Bool := false
  deriving DecidableEq, Repr

/-- `struct tcp_pcb`, the fields the input path reads or writes. The three queues are
lists in link order; `last_unsent` and `last_unacked` are their last elements. -/
structure Pcb where
  state : TcpState
  flags : PcbFlags := {}
  isInInput : Bool := false
  isIpv6 : Bool := false
  localIp : List UInt8 := []
  remoteIp : List UInt8 := []
  localPort : U16 := 0
  remotePort : U16 := 0
  soOptions : U32 := 0
  acked : U32 := 0
  rcvNxt : U32
  rcvWnd : U32
  rcvWndMax : U32
  rcvWndMaxDesired : U32 := 0
  rcvAnnWnd : U32 := 0
  rcvAnnRightEdge : U32 := 0
  sndNxt : U32
  lastack : U32
  sndWl1 : U32 := 0
  sndWl2 : U32 := 0
  sndWnd : U32 := 0
  sndWndMax : U32 := 0
  cwnd : U32 := 0
  ssthresh : U32 := 0
  mss : U16 := 536
  advtsdMss : U16 := 536
  sndScale : U8 := 0
  rcvScale : U8 := 0
  sndBuf : U32 := 0
  sndQueuelen : U32 := 0
  dupacks : U8 := 0
  nrtx : U8 := 0
  rto : S16 := 0
  sa : S16 := 0
  sv : S16 := 0
  rttest : U32 := 0
  rtseq : U32 := 0
  rtime : S16 := 0
  ticksSinceDataSent : U32 := 0
  persistBackoff : U8 := 0
  persistCnt : U8 := 0
  tmr : U32 := 0
  keepCntSent : U8 := 0
  tRttupdated : U32 := 0
  quickack : Bool := false
  enableTsOpt : Bool := false
  tsRecent : U32 := 0
  tsLastacksent : U32 := 0
  /-- `syn_tw_handled_cb != NULL` -/
  synTwHandledCb : Bool := false
  unacked : List TcpSeg := []
  unsent : List TcpSeg := []
  ooseq : List TcpSeg := []

/-- The IP header fields `fill_parsed_ip_hdr` extracts. -/
structure ParsedIpHdr where
  isIpv6 : Bool := false
  headerLength : S16 := 20
  totalLength : U16 := 0
  src : List UInt8 := []
  dest : List UInt8 := []
  deriving DecidableEq, Repr

/-- `tcp_in_data`: the per-packet context. The header the code reaches through `tcphdr` and
through `inseg.tcphdr` is one header in memory; nothing reads `tcphdr` after `tcp_receive`
writes through `inseg.tcphdr`, so the model keeps two copies. An empty chain is NULL. -/
structure InData where
  recvData : List Pbuf := []
  tcphdr : TcpHdr
  iphdr : ParsedIpHdr := {}
  seqno : U32
  ackno : U32
  tcplen : U16
  flags : TcpFlags
  recvFlags : RecvFlags := {}
  inseg : TcpSeg
  deriving DecidableEq, Repr

/-- `err_t` values the input path distinguishes. -/
inductive ErrT
  | ok | abrt | rst | other
  deriving DecidableEq, Repr

/-- Calls from the input path to the transmit path, the application and the allocator.
`tcp_out.c`, `tcp.c` and the socket layer are not among the sources: each call is recorded,
and its result, where the input path reads one, comes from `Env`. -/
inductive Event
  | rst (seqno ackno : U32) (localPort remotePort : U16)
  | sendEmptyAck | output | rexmitFast | rexmit
  | abort | abandon | pcbRemove | acceptedPcb | enqueueSynAck
  | sent (n : U32) | recv (p : List Pbuf) | closedUpcall | errUpcall
  | connected | accept | synReceived | synTwHandled
  deriving DecidableEq, Repr

/-- The congestion signals `tcp_receive` passes to `cc_ack_received`. -/
inductive CcSignal
  | none | ack | dupack
  deriving DecidableEq, Repr

/-- Modelled from the spec: the pluggable congestion-control strategy. Each callback may
change the congestion window and the slow-start threshold, and nothing else. -/
structure CcAlgo where
  connInit : Pcb → U32 × U32
  ackReceived : Pcb → CcSignal → U32 × U32
  postRecovery : Pcb → U32 × U32

/-- `none_cc_algo` of `cc_none.c`: `conn_init` opens the window to `UINT32_MAX`; it has no
other callback, and `cc.c` skips a missing one. -/
def noneCcAlgo : CcAlgo where
  connInit pcb := (BitVec.allOnes 32, pcb.ssthresh)
  ackReceived pcb _ := (pcb.cwnd, pcb.ssthresh)
  postRecovery pcb := (pcb.cwnd, pcb.ssthresh)

/-- Stack-wide settings the input path reads. -/
structure Config where
  enableWndScale : Bool := false
  rcvWndScale : U8 := 0
  /-- `TCP_WND`, scaled by `rcv_scale` in `TCP_WND_SCALED` -/
  tcpWnd : U32 := 65535
  sofInherited : U32 := 0
  /-- `TCP_QUICKACK_THRESHOLD`, 0 when not configured -/
  quickackThreshold : U16 := 0
  cc : CcAlgo := noneCcAlgo

/-- What the collaborators answer during one call of the input path. -/
structure Env where
  ticks : U32 := 0
  segCopyOk : Bool := true
  sendMss : U16 := 536
  sentErr : ErrT := .ok
  recvErr : ErrT := .ok
  closedErr : ErrT := .ok
  connectedErr : ErrT := .ok
  acceptErr : ErrT := .ok
  synReceivedErr : ErrT := .ok
  synTwHandledErr : ErrT := .ok
  enqueueErr : ErrT := .ok
  clone : Option Pcb := none
  recycle : Pcb → Pcb := id

/-- The state of one call: the PCB, the packet context and the calls made so far. -/
structure Ctx where
  pcb : Pcb
  d : InData
  ev : List Event := []

namespace Pcb

/-- `tcp_ack_now(pcb)` of `tcp_impl.h`. -/
def ackNow (pcb : Pcb) : Pcb := { pcb with flags := { pcb.flags with ackNow := true } }

/-- Modelled from the spec: `SND_WND_SCALE(pcb, wnd)`, the peer's window shifted by its scale. -/
def sndWndScale (pcb : Pcb) (wnd : U16) : U32 := wnd.setWidth 32 <<< pcb.sndScale.toNat

end Pcb

/-- Modelled from the spec: `TCP_WND_SCALED(pcb)`, the configured window shifted by the
receive scale. -/
def tcpWndScaled (cfg : Config) (pcb : Pcb) : U32 := cfg.tcpWnd <<< pcb.rcvScale.toNat

namespace Ctx

def emit (c : Ctx) (e : Event) : Ctx := { c with ev := c.ev ++ [e] }

def ackNow (c : Ctx) : Ctx := { c with pcb := c.pcb.ackNow }

/-- Modelled from the spec: `tcp_ack(pcb)` of `tcp_impl.h` schedules a delayed ACK, or an
immediate one when a delayed ACK is already pending. -/
def ack (c : Ctx) : Ctx :=
  if c.pcb.flags.ackDelay then
    { c with pcb := { c.pcb with flags := { c.pcb.flags with ackDelay := false, ackNow := true } } }
  else { c with pcb := { c.pcb with flags := { c.pcb.flags with ackDelay := true } } }

end Ctx

end XlioTcp
