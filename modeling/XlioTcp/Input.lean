import XlioTcp.Passive

/-! `L3_level_tcp_input`: parse the IP and TCP headers of an arriving buffer, then dispatch it
to the PCB's handler and run the application upcalls. -/
namespace XlioTcp

private def read16Be (b : List UInt8) (i : Nat) : U16 :=
  BitVec.ofNat 16 ((optByte b i).toNat * 256 + (optByte b (i+1)).toNat)

def fillParsedIpHdr (b : List UInt8) : ParsedIpHdr :=
  if (optByte b 0).toNat / 16 = 6 then
    { isIpv6 := true, src := (b.drop 8).take 16, dest := (b.drop 24).take 16,
      headerLength := 40, totalLength := read16Be b 4 + 40 }
  else
    { isIpv6 := false, src := (b.drop 12).take 4, dest := (b.drop 16).take 4,
      headerLength := BitVec.ofNat 16 ((optByte b 0).toNat % 16 * 4),
      totalLength := read16Be b 2 }

private def decodeFlags (x : UInt8) : TcpFlags :=
  { fin := x.toNat % 2 = 1, syn := x.toNat / 2 % 2 = 1, rst := x.toNat / 4 % 2 = 1,
    psh := x.toNat / 8 % 2 = 1, ack := x.toNat / 16 % 2 = 1, urg := x.toNat / 32 % 2 = 1 }

/-- The TCP header at the front of `b`, converted to host order. -/
def decodeTcpHdr (b : List UInt8) : TcpHdr where
  src := read16Be b 0
  dest := read16Be b 2
  seqno := BitVec.ofNat 32 ((read16Be b 4).toNat * 65536 + (read16Be b 6).toNat)
  ackno := BitVec.ofNat 32 ((read16Be b 8).toNat * 65536 + (read16Be b 10).toNat)
  hdrlen := BitVec.ofNat 4 ((optByte b 12).toNat / 16)
  flags := decodeFlags (optByte b 13)
  wnd := read16Be b 14
  opts := b.drop 20

/-- The parsing half of `L3_level_tcp_input`: trim the buffer to the IP total length, strip
the IP header, then the TCP header. `some none` is a silent drop, `none` a crash. -/
def tcpInParse (p : List Pbuf) : Option (Option InData) := do
  let first ← p.head?
  let iphdr := fillParsedIpHdr first.payload
  let p ← pbufRealloc p (iphdr.totalLength.setWidth 32)
  match p with
  | [] => none
  | q :: qs =>
    let hl := iphdr.headerLength.setWidth 32
    if hl > q.len || chainTotLen (pbufHeaderHide q hl :: qs) < 20 then some none
    else
      let q := pbufHeaderHide q hl
      let tcphdr := decodeTcpHdr q.payload
      let n := BitVec.ofNat 32 (tcphdr.hdrlen.toNat * 4)
      if n > q.len then some none
      else
        let p := pbufHeaderHide q n :: qs
        let flags := tcphdr.flags
        let tcplen := (chainTotLen p + if flags.fin || flags.syn then 1 else 0).setWidth 16
        some (some {
          tcphdr := tcphdr, iphdr := iphdr, seqno := tcphdr.seqno, ackno := tcphdr.ackno,
          tcplen := tcplen, flags := flags,
          inseg := {
            p := p, tcphdr := tcphdr, seqno := tcphdr.seqno, len := chainTotLen p,
            tcpFlags := flags } })

/-- What one call leaves of the PCB, and what it handed to the application. `pcb` is `none`
when the PCB was removed (reset, closed) or freed in an upcall. -/
structure InputResult where
  pcb : Option Pcb
  /-- the chain `tcp_receive` placed in `recv_data` -/
  recvData : List Pbuf
  recvFlags : RecvFlags
  ev : List Event

def markPush : List Pbuf → List Pbuf
  | [] => []
  | q :: qs => { q with push := true } :: qs

/-- The sent upcall, for the bytes `tcp_receive` left in `acked`. The flag is whether the
PCB is still there. -/
def upcallSent (env : Env) (c : Ctx) : Ctx × Bool :=
  if c.pcb.acked > 0 then (c.emit (.sent c.pcb.acked), env.sentErr ≠ .abrt) else (c, true)

def upcallRxClosed (c : Ctx) : Ctx × Bool :=
  if c.d.recvData ≠ [] && c.pcb.flags.rxclosed then (c.emit .abort, false) else (c, true)

/-- The recv upcall; the bytes of a chain the application refuses go back to the window. -/
def upcallRecv (env : Env) (c : Ctx) : Ctx × Bool :=
  if c.d.recvData ≠ [] then
    let c := if c.d.flags.psh then { c with d := { c.d with recvData := markPush c.d.recvData } }
      else c
    let c := c.emit (.recv c.d.recvData)
    if env.recvErr = .abrt then (c, false)
    else if env.recvErr ≠ .ok then
      ({ c with pcb := { c.pcb with rcvWnd := c.pcb.rcvWnd + chainTotLen c.d.recvData } }, true)
    else (c, true)
  else (c, true)

/-- EOF on a FIN: the FIN's byte goes back to the window, then the closed upcall. -/
def upcallClosed (env : Env) (c : Ctx) : Ctx × Bool :=
  if c.d.recvFlags.gotFin then
    let c := { c with pcb := { c.pcb with
      rcvWnd := if c.pcb.rcvWnd ≠ c.pcb.rcvWndMax then c.pcb.rcvWnd + 1 else c.pcb.rcvWnd } }
    (c.emit .closedUpcall, env.closedErr ≠ .abrt)
  else (c, true)

/-- Run an upcall only while the PCB is there (`goto aborted` skips the rest). -/
def thenUpcall (f : Ctx → Ctx × Bool) : Ctx × Bool → Ctx × Bool
  | (c, true) => f c
  | (c, false) => (c, false)

/-- The upcalls after `tcp_process` for a PCB that is neither reset nor closed: sent, recv,
then EOF on a FIN; then `tcp_output`. -/
def tcpInputUpcalls (env : Env) (c : Ctx) : InputResult :=
  let (c, alive) := thenUpcall (upcallClosed env) <| thenUpcall (upcallRecv env) <|
    thenUpcall upcallRxClosed (upcallSent env c)
  if alive then ⟨some { c.pcb with isInInput := false }, c.d.recvData, c.d.recvFlags, c.ev ++ [.output]⟩
  else ⟨none, c.d.recvData, c.d.recvFlags, c.ev⟩

/-- `L3_level_tcp_input` for a PCB in an active state, from the parsed segment on. -/
def tcpInputActive (cfg : Config) (env : Env) (pcb : Pcb) (d : InData) : Option InputResult :=
  (fun (c, err) =>
    if err = .abrt then ⟨none, c.d.recvData, c.d.recvFlags, c.ev⟩
    else if c.d.recvFlags.reset then
      ⟨none, c.d.recvData, c.d.recvFlags, c.ev ++ [.errUpcall, .pcbRemove]⟩
    else if c.d.recvFlags.closed then ⟨none, c.d.recvData, c.d.recvFlags, c.ev ++ [.pcbRemove]⟩
    else tcpInputUpcalls env c) <$>
  tcpProcess cfg env { pcb := { pcb with isInInput := true }, d := { d with recvData := [], recvFlags := {} } }

/-- Modelled from the spec: the buckets of `PCB_IN_ACTIVE_STATE`, `PCB_IN_LISTEN_STATE` and
`PCB_IN_TIME_WAIT_STATE`; a CLOSED PCB is in none of them. -/
def TcpState.isActive (s : TcpState) : Bool :=
  s ≠ .closed && s ≠ .listen && s ≠ .timeWait

/-- `L3_level_tcp_input(p, pcb)` after parsing: `none` is a crash. -/
def tcpInputDispatch (cfg : Config) (env : Env) (pcb : Option Pcb) (d : InData) :
    Option InputResult :=
  match pcb with
  | none =>
    some ⟨none, [], {}, if d.tcphdr.flags.rst then []
      else [.rst d.ackno (d.seqno + d.tcplen.setWidth 32) d.tcphdr.dest d.tcphdr.src]⟩
  | some pcb =>
    if pcb.state.isActive then tcpInputActive cfg env pcb d
    else if pcb.state = .listen then
      let (_, ev) := tcpListenInput cfg env pcb d
      some ⟨some pcb, [], {}, ev⟩
    else if pcb.state = .timeWait then
      (fun (c, _) => ⟨some c.pcb, [], {}, c.ev⟩) <$> tcpTimewaitInput cfg env ⟨pcb, d, []⟩
    else some ⟨some pcb, [], {}, []⟩

/-- `L3_level_tcp_input(p, pcb)`; a buffer the parser drops leaves everything as it was. -/
def l3LevelTcpInput (cfg : Config) (env : Env) (p : List Pbuf) (pcb : Option Pcb) :
    Option InputResult := do
  match ← tcpInParse p with
  | none => some ⟨pcb, [], {}, []⟩
  | some d => tcpInputDispatch cfg env pcb d

/-- A run of `L3_level_tcp_input` calls on one connection, from the parsed segments: each call
gets its own collaborator answers. The results in order; `none` at a crash. -/
def inputRun (cfg : Config) : Option Pcb → List (Env × InData) → Option (List InputResult)
  | _, [] => some []
  | pcb, (env, d) :: rest => do
    let r ← tcpInputDispatch cfg env pcb d
    (r :: ·) <$> inputRun cfg r.pcb rest

def inputRunPcb (cfg : Config) (pcb : Option Pcb) (steps : List (Env × InData)) :
    Option (Option Pcb) :=
  (inputRun cfg pcb steps).map fun rs => (rs.getLast?.map (·.pcb)).getD pcb

end XlioTcp
