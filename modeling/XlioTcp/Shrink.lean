import XlioTcp.Pcb

/-! Trimming the retransmit queues by a cumulative ACK (`tcp_shrink_segment`,
`tcp_shrink_zc_segment`, `ack_partial_or_whole_segment`). -/
namespace XlioTcp

def tcpHlen : U32 := 20

/-- Modelled from the spec: `LWIP_TCP_OPT_LENGTH(TF_SEG_OPTS_TS)` of `tcp_impl.h`, the 10-byte
timestamp option padded to 12 bytes so the options area stays 4-byte aligned. -/
def tcpOptLength (ts : Bool) : U32 := if ts then 12 else 0

/-- The variables the loops of the two shrinkers update: the segment's start and length,
the first fragment, the count of fragments freed, and the fragments still to look at. -/
structure ShrinkVars where
  seqno : U32
  len : U32
  first : Pbuf
  count : U32
  cur : List Pbuf

/-- The `while (cur_p)` loop of `tcp_shrink_segment`: fragments wholly below `ackno` leave the
chain; their bytes come off the segment and off the first fragment's `tot_len`. -/
def shrinkWalk (ackno seqno len : U32) (first : Pbuf) (count : U32) : List Pbuf → ShrinkVars
  | [] => ⟨seqno, len, first, count, []⟩
  | c :: rest =>
    if tcpSeqGt (seqno + c.len) ackno then ⟨seqno, len, first, count, c :: rest⟩
    else shrinkWalk ackno (seqno + c.len) (len - c.len)
      { first with totLen := first.totLen - c.len } (count + 1) rest

/-- The acknowledged length, rounded down to a multiple of 4 when options are sent
(`tcp_output_segment()` relies on an aligned options area). -/
def alignedLen (optlen len : U32) : U32 := if optlen > 0 then len &&& 0xfffffffc#32 else len

/-- `htonl(x)` as it lies in memory: the four bytes of `x`, most significant first. -/
def netBytes (x : U32) : List UInt8 :=
  [UInt8.ofNat (x.toNat / 2^24), UInt8.ofNat (x.toNat / 2^16), UInt8.ofNat (x.toNat / 2^8), UInt8.ofNat x.toNat]

/-- `tcphdr->seqno = htonl(x)` on the bytes of a header: bytes 4 to 7. Bytes the list does not
hold are not modelled, so a list shorter than the field is left as it is. -/
def setHdrSeqno (x : U32) (hdr : List UInt8) : List UInt8 :=
  if 8 ≤ hdr.length then hdr.take 4 ++ netBytes x ++ hdr.drop 8 else hdr

section HdrSeqno
variable {x : U32} {h : List UInt8}

@[simp] theorem netBytes_length (x : U32) : (netBytes x).length = 4 := rfl

theorem setHdrSeqno_of_le (hl : 8 ≤ h.length) : setHdrSeqno x h = h.take 4 ++ netBytes x ++ h.drop 8 :=
  if_pos hl

theorem setHdrSeqno_of_lt (hl : h.length < 8) : setHdrSeqno x h = h :=
  if_neg (by omega)

@[simp] theorem setHdrSeqno_length (x : U32) (h : List UInt8) : (setHdrSeqno x h).length = h.length := by
  unfold setHdrSeqno; split <;> simp; omega

@[simp] theorem setHdrSeqno_setHdrSeqno (x y : U32) (h : List UInt8) :
    setHdrSeqno y (setHdrSeqno x h) = setHdrSeqno y h := by
  by_cases hl : 8 ≤ h.length
  · have h4 : (h.take 4).length = 4 := by simp; omega
    have hw : ∀ z, (h.take 4 ++ netBytes z ++ h.drop 8).take 4 = h.take 4 ∧
        (h.take 4 ++ netBytes z ++ h.drop 8).drop 8 = h.drop 8 := fun z =>
      ⟨by rw [List.append_assoc, List.take_left' h4], List.drop_left' (by simp; omega)⟩
    rw [setHdrSeqno_of_le (by simpa using hl), setHdrSeqno_of_le hl, setHdrSeqno_of_le hl, (hw x).1, (hw x).2]
  · rw [setHdrSeqno_of_lt (x := x) (by omega)]

theorem setHdrSeqno_append {a : List UInt8} (b : List UInt8) (ha : 8 ≤ a.length) :
    setHdrSeqno x (a ++ b) = setHdrSeqno x a ++ b := by
  rw [setHdrSeqno_of_le (by simp; omega), setHdrSeqno_of_le ha, List.take_append_of_le_length (by omega),
    List.drop_append_of_le_length ha]
  simp only [List.append_assoc]

theorem take_setHdrSeqno {n : Nat} (h : List UInt8) (hn : 8 ≤ n) :
    (setHdrSeqno x h).take n = setHdrSeqno x (h.take n) := by
  by_cases hl : 8 ≤ h.length
  · rw [setHdrSeqno_of_le hl, setHdrSeqno_of_le (by simp; omega)]
    have h4 : min 4 h.length = 4 := by omega
    simp [List.take_append_eq_append_take, List.drop_take, List.take_take, h4, Nat.min_eq_right (by omega : 4 ≤ n),
      Nat.min_eq_left (by omega : 4 ≤ n), List.take_of_length_le (show (netBytes x).length ≤ n - 4 by simp; omega),
      Nat.sub_sub]
  · rw [setHdrSeqno_of_lt (by omega), setHdrSeqno_of_lt (by simp; omega)]

theorem drop_setHdrSeqno {n : Nat} (h : List UInt8) (hn : 8 ≤ n) : (setHdrSeqno x h).drop n = h.drop n := by
  by_cases hl : 8 ≤ h.length
  · rw [setHdrSeqno_of_le hl, List.drop_append_eq_append_drop, List.drop_eq_nil_of_le (by simp; omega)]
    simp only [List.length_append, List.length_take, netBytes_length, List.drop_drop, List.nil_append]
    congr 1; omega
  · rw [setHdrSeqno_of_lt (by omega)]

end HdrSeqno

/-- `tcp_shrink_segment`: returns the trimmed segment and the number of fragments freed.
The header's fields live in `tcphdr`, and its 20 bytes at the front of the first fragment:
each `seg->tcphdr->seqno = htonl(seg->seqno)` writes the new start into those bytes before
they are moved. The `TCP_HLEN` bytes moved are read from the fragment's memory (zeros past
it), and where the header is placed before a fragment's data, the option bytes between them
are whatever memory held (zeros here); `tcp_output_segment` rewrites them. -/
def tcpShrinkSegment (pcb : Pcb) (seg : TcpSeg) (ackno : U32) : Option (TcpSeg × U32) :=
  match seg.p with
  | [] => none
  | first :: cur =>
    let optlen := tcpOptLength pcb.flags.timestamp
    let hdr := (first.payload ++ List.replicate 20 0).take 20
    if tcpSeqGt (seg.seqno + first.len - optlen - tcpHlen) ackno then
      let len := alignedLen optlen (ackno - seg.seqno)
      let seqno := seg.seqno + len
      let first' := { first with
        totLen := first.totLen - len, len := first.len - len,
        payload := setHdrSeqno seqno hdr ++ first.payload.drop (len.toNat + 20) }
      some ({ seg with
        len := seg.len - len, seqno := seqno, tcphdr := { seg.tcphdr with seqno := seqno },
        p := first' :: cur }, 0)
    else match cur with
      | [] => some (seg, 0)
      | _ :: _ =>
        let l := first.len - tcpHlen - optlen
        let first0 := { first with totLen := first.totLen - l, len := tcpHlen + optlen }
        let v := shrinkWalk ackno (seg.seqno + l) (seg.len - l) first0 0 cur
        match v.cur with
        | [] =>
          some ({ seg with
            seqno := v.seqno, len := v.len, tcphdr := { seg.tcphdr with seqno := v.seqno },
            p := [{ v.first with payload := setHdrSeqno v.seqno v.first.payload }] }, v.count)
        | c :: rest =>
          let k := alignedLen optlen (ackno - v.seqno)
          let d := k - optlen
          let body := if optlen ≤ k then c.payload.drop d.toNat
            else List.replicate (optlen - k).toNat 0 ++ c.payload
          let c' := { c with
            totLen := c.totLen - d + tcpHlen, len := c.len - d + tcpHlen,
            payload := setHdrSeqno (v.seqno + k) hdr ++ body }
          some ({ seg with
            seqno := v.seqno + k, len := v.len - k, tcphdr := { seg.tcphdr with seqno := v.seqno + k },
            p := c' :: rest }, v.count + 1)

/-- The `while` loop of `tcp_shrink_zc_segment`: whole fragments below `ackno` are dropped;
`first` is the fragment it stops at. `none` when it drops the last one (the
`assert(seg->p != NULL)`). -/
def zcWalk (ackno seqno len count : U32) : List Pbuf → Option ShrinkVars
  | [] => none
  | q :: qs =>
    if tcpSeqGeq ackno (seqno + q.len) then zcWalk ackno (seqno + q.len) (len - q.len) (count + 1) qs
    else some ⟨seqno, len, q, count, qs⟩

/-- `tcp_shrink_zc_segment`: drops whole fragments, then moves the first remaining fragment's
payload pointer; no header byte is written into the fragments. -/
def tcpShrinkZcSegment (seg : TcpSeg) (ackno : U32) : Option (TcpSeg × U32) :=
  (zcWalk ackno seg.seqno seg.len 0 seg.p).map fun v =>
    if tcpSeqGt ackno v.seqno then
      let l := ackno - v.seqno
      let q' := { v.first with
        payload := v.first.payload.drop l.toNat, len := v.first.len - l, totLen := v.first.totLen - l }
      ({ seg with
        seqno := ackno, len := v.len - l, tcphdr := { seg.tcphdr with seqno := ackno },
        p := q' :: v.cur }, v.count)
    else ({ seg with
      seqno := v.seqno, len := v.len, tcphdr := { seg.tcphdr with seqno := v.seqno },
      p := v.first :: v.cur }, v.count)

/-- `ack_partial_or_whole_segment`: remove the segments `ackno` covers from the head of a queue
and trim a straddling one, unless it carries FIN. -/
def ackPartialOrWholeSegment (pcb : Pcb) (ackno : U32) : List TcpSeg → Option (Pcb × List TcpSeg)
  | [] => some (pcb, [])
  | seg :: rest =>
    if tcpSeqGt ackno seg.seqno then
      if tcpSeqLt ackno (seg.seqno + seg.seglen) then
        if seg.tcpFlags.fin then some (pcb, seg :: rest)
        else
          let shrunk := if seg.zerocopy then tcpShrinkZcSegment seg ackno
            else tcpShrinkSegment pcb seg ackno
          shrunk.map fun (seg', removed) =>
            ({ pcb with sndQueuelen := pcb.sndQueuelen - removed }, seg' :: rest)
      else
        let acked := if pcb.acked ≠ 0 && seg.tcpFlags.fin then pcb.acked - 1 else pcb.acked
        ackPartialOrWholeSegment
          { pcb with acked := acked, sndQueuelen := pcb.sndQueuelen - pbufClen seg.p } ackno rest
    else some (pcb, seg :: rest)

end XlioTcp
