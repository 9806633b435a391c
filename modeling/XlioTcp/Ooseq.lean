import XlioTcp.Pcb

/-! The out-of-order queue manager: `tcp_oos_insert_segment` and the loop of `tcp_receive`
that finds the place of an out-of-sequence segment on `ooseq`. -/
namespace XlioTcp

/-- The `while` loop of `tcp_oos_insert_segment`: free the entries the new segment covers,
taking over a FIN one of them carries. -/
def oosDropCovered (seqno : U32) (cseg : TcpSeg) : List TcpSeg → TcpSeg × List TcpSeg
  | [] => (cseg, [])
  | next :: rest =>
    if tcpSeqGeq (seqno + cseg.len) (next.start + next.len) then
      oosDropCovered seqno (if next.tcphdr.flags.fin then cseg.setFin true else cseg) rest
    else (cseg, next :: rest)

/-- `tcp_oos_insert_segment(pcb, cseg, next, in_data)`: `cseg`, starting at `seqno`, goes in
front of `next`; entries it covers are freed and it is cut where the first remaining one
starts. Returns the queue from `cseg` on. -/
def tcpOosInsertSegment (seqno : U32) (cseg : TcpSeg) (next : List TcpSeg) :
    Option (List TcpSeg) :=
  if cseg.tcphdr.flags.fin then some [cseg]
  else
    match oosDropCovered seqno cseg next with
    | (cseg, n :: rest) =>
      if tcpSeqGt (seqno + cseg.len) n.start then
        let len := n.start - seqno
        (fun p => { cseg with len := len, p := p } :: n :: rest) <$> pbufRealloc cseg.p len
      else some (cseg :: n :: rest)
    | (cseg, []) => some [cseg]

/-- Appending at the tail: `next` is the last entry and the segment starts after it. The
entry is cut at the segment's start and the segment at the right edge `rcvRight` of the
receive window. Returns the queue from `next` on and `in_data->tcplen`. -/
def ooseqAppend (env : Env) (rcvRight : U32) (d : InData) (next : TcpSeg) :
    Option (List TcpSeg × U16) :=
  if next.tcphdr.flags.fin || !env.segCopyOk then some ([next], d.tcplen)
  else do
    let next' ← if tcpSeqGt (next.start + next.len) d.seqno then
        let len := d.seqno - next.start
        (fun p => { next with len := len, p := p }) <$> pbufRealloc next.p len
      else some next
    if tcpSeqGt (d.seqno + d.tcplen.setWidth 32) rcvRight then
      let len := rcvRight - d.seqno
      let p ← pbufRealloc d.inseg.p len
      let cseg := { d.inseg.setFin false with len := len, p := p }
      some ([next', cseg], cseg.tcplen.setWidth 16)
    else some ([next', d.inseg], d.tcplen)

/-- The `for` loop of `tcp_receive` placing an out-of-sequence segment on `ooseq`. `prev` is
the entry before `next`; returns the queue from `prev` on (from `next` when there is no
`prev`) and `in_data->tcplen`. A failed `tcp_seg_copy` leaves the queue as it was. -/
def ooseqPlace (env : Env) (rcvRight : U32) (d : InData) :
    Option TcpSeg → List TcpSeg → Option (List TcpSeg × U16)
  | prev, [] => some (prev.toList, d.tcplen)
  | prev, next :: rest =>
    let keep := some (prev.toList ++ next :: rest, d.tcplen)
    let continue? : Option (List TcpSeg × U16) :=
      if rest = [] ∧ tcpSeqGt d.seqno next.start then
        (fun (q, t) => (prev.toList ++ q, t)) <$> ooseqAppend env rcvRight d next
      else (fun (q, t) => (prev.toList ++ q, t)) <$> ooseqPlace env rcvRight d (some next) rest
    if d.seqno = next.start then
      if d.inseg.len > next.len && env.segCopyOk then
        (fun q => (prev.toList ++ q, d.tcplen)) <$> tcpOosInsertSegment d.seqno d.inseg (next :: rest)
      else keep
    else match prev with
      | none =>
        if tcpSeqLt d.seqno next.start then
          if env.segCopyOk then
            (fun q => (q, d.tcplen)) <$> tcpOosInsertSegment d.seqno d.inseg (next :: rest)
          else keep
        else continue?
      | some pv =>
        if tcpSeqBetween d.seqno (pv.start + 1) (next.start - 1) then
          if env.segCopyOk then do
            let pv' ← if tcpSeqGt (pv.start + pv.len) d.seqno then
                let len := d.seqno - pv.start
                (fun p => { pv with len := len, p := p }) <$> pbufRealloc pv.p len
              else some pv
            let q ← tcpOosInsertSegment d.seqno d.inseg (next :: rest)
            some (pv' :: q, d.tcplen)
          else keep
        else continue?

end XlioTcp
