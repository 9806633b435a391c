import XlioTcp.StateMachine
import Mathlib.Tactic.Simps.Basic

/-! The receive path does not depend on where the two sequence spaces sit modulo 2^32.
`SeqShift` moves every receive-space value by `rcv` and every send-space value by `snd`; each
function of the input path commutes with it, callees first, and `input_shift_equivariant`
collects the four entry points. The congestion-control callbacks are the one collaborator that
sees the PCB, so they are assumed to read no sequence number (`CcAlgo.SeqFree`, which the
repository's `cc_none` satisfies). -/
namespace XlioTcp

/-- How far the peer's sequence space (`rcv`) and ours (`snd`) are moved. -/
structure SeqShift where
  rcv : U32
  snd : U32

/-- The sequence number moved by `a`, the acknowledgment number by `b`. -/
@[simps]
def TcpHdr.shift (a b : U32) (h : TcpHdr) : TcpHdr :=
  { h with seqno := h.seqno + a, ackno := h.ackno + b }

/-- A segment and its header moved: `a` for the space of its sequence numbers. -/
@[simps]
def TcpSeg.shift (a b : U32) (s : TcpSeg) : TcpSeg :=
  { s with seqno := s.seqno + a, tcphdr := s.tcphdr.shift a b }

/-- The bytes of a header with their sequence-number field moved by `a`. -/
def shiftHdrSeqno (a : U32) (hdr : List UInt8) : List UInt8 := setHdrSeqno (read32Be hdr 4 + a) hdr

/-- One of our segments moved. A copied segment carries its `seqno` a second time, in the header
bytes at the front of its first fragment (`tcp_shrink_segment` writes it there); they move too. -/
@[simps]
def TcpSeg.shiftOut (a b : U32) (s : TcpSeg) : TcpSeg :=
  { s with
    seqno := s.seqno + a
    tcphdr := s.tcphdr.shift a b
    p := if s.zerocopy then s.p else s.p.modifyHead fun q => { q with payload := shiftHdrSeqno a q.payload } }

namespace SeqShift
variable (σ : SeqShift)

/-- An incoming segment (or an `ooseq` entry) carries the peer's sequence numbers. -/
abbrev inSeg : TcpSeg → TcpSeg := TcpSeg.shift σ.rcv σ.snd
/-- A segment of ours, on `unacked` or `unsent`. -/
abbrev outSeg : TcpSeg → TcpSeg := TcpSeg.shiftOut σ.snd σ.rcv

@[simps]
def pcb (p : Pcb) : Pcb :=
  { p with
    rcvNxt := p.rcvNxt + σ.rcv, rcvAnnRightEdge := p.rcvAnnRightEdge + σ.rcv,
    sndWl1 := p.sndWl1 + σ.rcv, tsLastacksent := p.tsLastacksent + σ.rcv,
    sndNxt := p.sndNxt + σ.snd, lastack := p.lastack + σ.snd, sndWl2 := p.sndWl2 + σ.snd,
    rtseq := p.rtseq + σ.snd,
    unacked := p.unacked.map σ.outSeg, unsent := p.unsent.map σ.outSeg, ooseq := p.ooseq.map σ.inSeg }

@[simps]
def inData (d : InData) : InData :=
  { d with
    tcphdr := d.tcphdr.shift σ.rcv σ.snd, seqno := d.seqno + σ.rcv, ackno := d.ackno + σ.snd,
    inseg := σ.inSeg d.inseg }

/-- A RST we send carries our sequence number and acknowledges the peer's. -/
def event : Event → Event
  | .rst seqno ackno lp rp => .rst (seqno + σ.snd) (ackno + σ.rcv) lp rp
  | e => e

@[simps]
def ctx (c : Ctx) : Ctx := ⟨σ.pcb c.pcb, σ.inData c.d, c.ev.map σ.event⟩

theorem pcb_fold (state : TcpState) (flags : PcbFlags) (isInInput isIpv6 quickack enableTsOpt synTwHandledCb : Bool) (localIp remoteIp : List UInt8) (localPort remotePort mss advtsdMss : U16) (soOptions acked rcvNxt rcvWnd rcvWndMax rcvWndMaxDesired rcvAnnWnd rcvAnnRightEdge sndNxt lastack sndWl1 sndWl2 sndWnd sndWndMax cwnd ssthresh sndBuf sndQueuelen rttest rtseq ticksSinceDataSent tmr tRttupdated tsRecent tsLastacksent : U32) (sndScale rcvScale dupacks nrtx persistBackoff persistCnt keepCntSent : U8) (rto sa sv rtime : S16) (unacked unsent ooseq : List TcpSeg) :
    Pcb.mk state flags isInInput isIpv6 localIp remoteIp localPort remotePort soOptions acked (rcvNxt + σ.rcv) rcvWnd rcvWndMax rcvWndMaxDesired rcvAnnWnd (rcvAnnRightEdge + σ.rcv) (sndNxt + σ.snd) (lastack + σ.snd) (sndWl1 + σ.rcv) (sndWl2 + σ.snd) sndWnd sndWndMax cwnd ssthresh mss advtsdMss sndScale rcvScale sndBuf sndQueuelen dupacks nrtx rto sa sv rttest (rtseq + σ.snd) rtime ticksSinceDataSent persistBackoff persistCnt tmr keepCntSent tRttupdated quickack enableTsOpt tsRecent (tsLastacksent + σ.rcv) synTwHandledCb (List.map σ.outSeg unacked) (List.map σ.outSeg unsent) (List.map σ.inSeg ooseq) =
    σ.pcb ⟨state, flags, isInInput, isIpv6, localIp, remoteIp, localPort, remotePort, soOptions, acked, rcvNxt, rcvWnd, rcvWndMax, rcvWndMaxDesired, rcvAnnWnd, rcvAnnRightEdge, sndNxt, lastack, sndWl1, sndWl2, sndWnd, sndWndMax, cwnd, ssthresh, mss, advtsdMss, sndScale, rcvScale, sndBuf, sndQueuelen, dupacks, nrtx, rto, sa, sv, rttest, rtseq, rtime, ticksSinceDataSent, persistBackoff, persistCnt, tmr, keepCntSent, tRttupdated, quickack, enableTsOpt, tsRecent, tsLastacksent, synTwHandledCb, unacked, unsent, ooseq⟩ := rfl

theorem ctx_fold (p : Pcb) (d : InData) (ev : List Event) :
    Ctx.mk (σ.pcb p) (σ.inData d) (ev.map σ.event) = σ.ctx ⟨p, d, ev⟩ := rfl

/-- The shift back. -/
def neg : SeqShift := ⟨-σ.rcv, -σ.snd⟩

/-- The environment seen from the moved spaces: the PCB the listen callback clones carries our
initial sequence number, and a recycled PCB is moved with the one it recycles. -/
@[simps]
def env (e : Env) : Env :=
  { e with clone := e.clone.map σ.pcb, recycle := fun p => σ.pcb (e.recycle (σ.neg.pcb p)) }

end SeqShift

/-- The congestion-control callbacks read no sequence number. -/
structure CcAlgo.SeqFree (cc : CcAlgo) : Prop where
  connInit : ∀ (σ : SeqShift) p, cc.connInit (σ.pcb p) = cc.connInit p
  ackReceived : ∀ (σ : SeqShift) p s, cc.ackReceived (σ.pcb p) s = cc.ackReceived p s
  postRecovery : ∀ (σ : SeqShift) p, cc.postRecovery (σ.pcb p) = cc.postRecovery p

theorem noneCcAlgo_seqFree : noneCcAlgo.SeqFree := ⟨fun _ _ => rfl, fun _ _ _ => rfl, fun _ _ => rfl⟩

@[simp] theorem TcpSeg.shift_start (a b : U32) (s : TcpSeg) : (s.shift a b).start = s.start + a := rfl
@[simp] theorem TcpSeg.shift_seglen (a b : U32) (s : TcpSeg) : (s.shift a b).seglen = s.seglen := rfl
@[simp] theorem TcpSeg.shift_tcplen (a b : U32) (s : TcpSeg) : (s.shift a b).tcplen = s.tcplen := rfl
@[simp] theorem TcpSeg.shiftOut_seglen (a b : U32) (s : TcpSeg) : (s.shiftOut a b).seglen = s.seglen := rfl

theorem TcpSeg.shiftOut_of_zerocopy {a b : U32} {s : TcpSeg} (hz : s.zerocopy = true) :
    s.shiftOut a b = s.shift a b := by
  unfold TcpSeg.shiftOut; rw [if_pos hz]; rfl

@[simp] theorem TcpSeg.shiftOut_clen (a b : U32) (s : TcpSeg) : pbufClen (s.shiftOut a b).p = pbufClen s.p := by
  simp only [TcpSeg.shiftOut_p, pbufClen]
  split <;> simp only [List.length_modifyHead]

/-! ## The sequence-number field in a header's bytes -/

private theorem u8_toNat_ofNat (n : Nat) : (UInt8.ofNat n).toNat = n % 256 := rfl

private theorem read32Be_append (a b : List UInt8) (i : Nat) :
    read32Be (a ++ b) (a.length + i) = read32Be b i := by
  simp only [read32Be, optByte, List.getD_eq_getElem?_getD, Nat.add_assoc,
    List.getElem?_append_right (Nat.le_add_right _ _), Nat.add_sub_cancel_left]

private theorem read32Be_append_left {a : List UInt8} (b : List UInt8) (ha : 8 ≤ a.length) :
    read32Be (a ++ b) 4 = read32Be a 4 := by
  simp only [read32Be, optByte, List.getD_eq_getElem?_getD, List.getElem?_append_left (show 4 < a.length by omega),
    List.getElem?_append_left (show 4 + 1 < a.length by omega), List.getElem?_append_left (show 4 + 2 < a.length by omega),
    List.getElem?_append_left (show 4 + 3 < a.length by omega)]

private theorem read32Be_netBytes (x : U32) (r : List UInt8) : read32Be (netBytes x ++ r) 0 = x := by
  apply BitVec.eq_of_toNat_eq
  simp only [read32Be, optByte, netBytes, List.getD_eq_getElem?_getD, List.cons_append, List.getElem?_cons_zero,
    List.getElem?_cons_succ, Option.getD_some, u8_toNat_ofNat, BitVec.toNat_ofNat]
  omega

/-- The field reads back as written. -/
theorem read32Be_setHdrSeqno {x : U32} {h : List UInt8} (hl : 8 ≤ h.length) : read32Be (setHdrSeqno x h) 4 = x := by
  have h4 : (h.take 4).length = 4 := by simp; omega
  have := read32Be_append (h.take 4) (netBytes x ++ h.drop 8) 0
  rw [h4] at this
  rw [setHdrSeqno_of_le hl, List.append_assoc, this, read32Be_netBytes]

private theorem netBytes_read32Be (a b c d : UInt8) (r : List UInt8) :
    netBytes (read32Be (a :: b :: c :: d :: r) 0) = [a, b, c, d] := by
  have := a.toNat_lt_size; have := b.toNat_lt_size; have := c.toNat_lt_size; have := d.toNat_lt_size
  simp only [UInt8.size] at *
  simp only [netBytes, read32Be, optByte, List.getD_eq_getElem?_getD, List.getElem?_cons_zero,
    List.getElem?_cons_succ, Option.getD_some, BitVec.toNat_ofNat, List.cons.injEq, and_true]
  refine ⟨?_, ?_, ?_, ?_⟩ <;> apply UInt8.toNat.inj <;> rw [u8_toNat_ofNat] <;> omega

/-- Writing the field with the value it holds changes nothing. -/
theorem setHdrSeqno_read32Be {h : List UInt8} (hl : 8 ≤ h.length) : setHdrSeqno (read32Be h 4) h = h := by
  match h, hl with
  | h0 :: h1 :: h2 :: h3 :: a :: b :: c :: d :: r, _ =>
    rw [setHdrSeqno_of_le (by simp), show read32Be (h0 :: h1 :: h2 :: h3 :: a :: b :: c :: d :: r) 4 =
      read32Be (a :: b :: c :: d :: r) 0 from read32Be_append [h0, h1, h2, h3] _ 0, netBytes_read32Be]
    rfl

theorem shiftHdrSeqno_of_lt {a : U32} {h : List UInt8} (hl : h.length < 8) : shiftHdrSeqno a h = h :=
  setHdrSeqno_of_lt hl

theorem shiftHdrSeqno_setHdrSeqno (a x : U32) (h : List UInt8) :
    shiftHdrSeqno a (setHdrSeqno x h) = setHdrSeqno (x + a) h := by
  by_cases hl : 8 ≤ h.length
  · rw [shiftHdrSeqno, read32Be_setHdrSeqno hl, setHdrSeqno_setHdrSeqno]
  · rw [setHdrSeqno_of_lt (x := x) (by omega), setHdrSeqno_of_lt (by omega), shiftHdrSeqno_of_lt (by omega)]

theorem drop_shiftHdrSeqno {n : Nat} (a : U32) (h : List UInt8) (hn : 8 ≤ n) : (shiftHdrSeqno a h).drop n = h.drop n :=
  drop_setHdrSeqno h hn

@[simp] theorem setHdrSeqno_shiftHdrSeqno (a x : U32) (h : List UInt8) :
    setHdrSeqno x (shiftHdrSeqno a h) = setHdrSeqno x h :=
  setHdrSeqno_setHdrSeqno _ _ _

theorem shiftHdrSeqno_append {h : List UInt8} (a : U32) (b : List UInt8) (hl : 8 ≤ h.length) :
    shiftHdrSeqno a (h ++ b) = shiftHdrSeqno a h ++ b := by
  rw [shiftHdrSeqno, shiftHdrSeqno, read32Be_append_left _ hl, setHdrSeqno_append _ hl]

theorem shiftHdrSeqno_neg (a : U32) (h : List UInt8) : shiftHdrSeqno (-a) (shiftHdrSeqno a h) = h := by
  by_cases hl : 8 ≤ h.length
  · rw [show shiftHdrSeqno a h = setHdrSeqno (read32Be h 4 + a) h from rfl, shiftHdrSeqno_setHdrSeqno,
      add_neg_cancel_right, setHdrSeqno_read32Be hl]
  · rw [shiftHdrSeqno_of_lt (a := a) (by omega), shiftHdrSeqno_of_lt (by omega)]

/-- The `TCP_HLEN` bytes `tcp_shrink_segment` moves, once the field is written, do not depend on
what the field held. -/
theorem setHdrSeqno_take_shiftHdrSeqno (a x : U32) (h z : List UInt8) {n : Nat} (hn : 8 ≤ n) :
    setHdrSeqno x ((shiftHdrSeqno a h ++ z).take n) = setHdrSeqno x ((h ++ z).take n) := by
  by_cases hl : 8 ≤ h.length
  · rw [shiftHdrSeqno, ← setHdrSeqno_append _ hl, ← take_setHdrSeqno _ hn, ← take_setHdrSeqno _ hn,
      setHdrSeqno_setHdrSeqno]
  · rw [shiftHdrSeqno_of_lt (by omega)]

theorem TcpSeg.shiftOut_shiftOut_neg (a b : U32) (s : TcpSeg) : (s.shiftOut a b).shiftOut (-a) (-b) = s := by
  obtain ⟨p, h, sq, l, z, f⟩ := s
  cases z
  · cases p <;> simp [TcpSeg.shiftOut, TcpHdr.shift, shiftHdrSeqno_neg]
  · simp [TcpSeg.shiftOut, TcpHdr.shift]

section
variable (σ : SeqShift)

/-- The walk reads neither the first fragment's bytes nor where the spaces sit. -/
theorem shrinkWalk_shift (k ackno seqno len : U32) (P P' : List UInt8) (l t : U32) (push : Bool) (count : U32)
    (cur : List Pbuf) :
    shrinkWalk (ackno + k) (seqno + k) len ⟨P', l, t, push⟩ count cur =
      { shrinkWalk ackno seqno len ⟨P, l, t, push⟩ count cur with
        seqno := (shrinkWalk ackno seqno len ⟨P, l, t, push⟩ count cur).seqno + k,
        first := { (shrinkWalk ackno seqno len ⟨P, l, t, push⟩ count cur).first with payload := P' } } := by
  induction cur generalizing seqno len t count with
  | nil => rfl
  | cons c rest ih =>
    simp only [shrinkWalk, add_shift_comm _ _ k, tcpSeqGt_add_add]
    split_ifs
    · rfl
    · exact ih _ _ _ _

theorem shrinkWalk_first_payload (ackno seqno len : U32) (first : Pbuf) (count : U32) (cur : List Pbuf) :
    (shrinkWalk ackno seqno len first count cur).first.payload = first.payload := by
  induction cur generalizing seqno len first count with
  | nil => rfl
  | cons c rest ih =>
    simp only [shrinkWalk]
    split_ifs
    · rfl
    · exact ih _ _ _ _

theorem tcpShrinkSegment_shift (k ackno : U32) (p : Pcb) (seg : TcpSeg) (b : U32) (hz : seg.zerocopy = false) :
    tcpShrinkSegment p (seg.shiftOut k b) (ackno + k) =
      (tcpShrinkSegment p seg ackno).map fun r => (r.1.shiftOut k b, r.2) := by
  unfold tcpShrinkSegment
  rcases hp : seg.p with _ | ⟨⟨P, l, t, push⟩, cur⟩
  · simp [TcpSeg.shiftOut, hp]
  · have h20 : ∀ x, 8 ≤ (setHdrSeqno x ((P ++ List.replicate 20 0).take 20)).length := fun x => by simp
    simp only [TcpSeg.shiftOut, hz, hp, Bool.false_eq_true, if_false, List.modifyHead_cons, add_shift_comm _ _ k,
      sub_add_add_right, setHdrSeqno_take_shiftHdrSeqno _ _ _ _ (show 8 ≤ 20 by decide)]
    simp only [add_sub_shift_comm _ _ k, tcpSeqGt_add_add]
    generalize tcpOptLength p.flags.timestamp = optlen
    split
    · simp only [Option.map_some', TcpHdr.shift, hz, Bool.false_eq_true, if_false, List.modifyHead_cons,
        shiftHdrSeqno_append _ _ (h20 _), shiftHdrSeqno_setHdrSeqno, drop_shiftHdrSeqno _ _ (le_add_left (show 8 ≤ 20 by decide))]
    · rcases cur with _ | ⟨c0, cs⟩
      · simp only [Option.map_some', TcpSeg.shiftOut, hp, hz, Bool.false_eq_true, if_false, List.modifyHead_cons]
      · dsimp only
        rw [shrinkWalk_shift k ackno _ _ P]
        generalize hv : shrinkWalk _ _ _ _ _ _ = v
        have hP : v.first.payload = P := by rw [← hv, shrinkWalk_first_payload]
        rcases v with ⟨vs, vl, vf, vc, _ | ⟨c, rest⟩⟩
        · simp only [Option.map_some', TcpHdr.shift, hz, Bool.false_eq_true, if_false, List.modifyHead_cons,
            setHdrSeqno_shiftHdrSeqno, shiftHdrSeqno_setHdrSeqno, ← hP]
        · simp only [Option.map_some', TcpHdr.shift, hz, Bool.false_eq_true, if_false, List.modifyHead_cons,
            shiftHdrSeqno_append _ _ (h20 _), shiftHdrSeqno_setHdrSeqno, sub_add_eq_sub_sub, sub_add_cancel,
            add_shift_comm _ _ k]

theorem zcWalk_shift (k ackno seqno len count : U32) (q : List Pbuf) :
    zcWalk (ackno + k) (seqno + k) len count q =
      (zcWalk ackno seqno len count q).map fun v => { v with seqno := v.seqno + k } := by
  induction q generalizing seqno len count with
  | nil => rfl
  | cons c rest ih =>
    simp only [zcWalk, add_shift_comm _ _ k, tcpSeqGeq_add_add]
    split_ifs
    · exact ih _ _ _
    · rfl

theorem tcpShrinkZcSegment_shift (k ackno : U32) (seg : TcpSeg) (b : U32) (hz : seg.zerocopy = true) :
    tcpShrinkZcSegment (seg.shiftOut k b) (ackno + k) =
      (tcpShrinkZcSegment seg ackno).map fun r => (r.1.shiftOut k b, r.2) := by
  unfold tcpShrinkZcSegment
  rw [TcpSeg.shiftOut_of_zerocopy hz, TcpSeg.shift_seqno, TcpSeg.shift_len, TcpSeg.shift_p, zcWalk_shift,
    Option.map_map, Option.map_map]
  congr 1
  funext v
  simp only [Function.comp, tcpSeqGt_add_add, sub_add_add_right]
  split <;> simp only [TcpSeg.shiftOut, TcpSeg.shift, TcpHdr.shift, hz, if_true]

theorem ackPartialOrWholeSegment_shift (p : Pcb) (ackno : U32) (q : List TcpSeg) :
    ackPartialOrWholeSegment (σ.pcb p) (ackno + σ.snd) (q.map σ.outSeg) =
      (ackPartialOrWholeSegment p ackno q).map fun r => (σ.pcb r.1, r.2.map σ.outSeg) := by
  induction q generalizing p with
  | nil => rfl
  | cons s r ih =>
    simp only [List.map_cons, ackPartialOrWholeSegment, TcpSeg.shiftOut_seqno, TcpSeg.shiftOut_seglen,
      TcpSeg.shiftOut_tcpFlags, TcpSeg.shiftOut_zerocopy, TcpSeg.shiftOut_clen, add_shift_comm _ _ σ.snd,
      tcpSeqGt_add_add, tcpSeqLt_add_add]
    split
    · split
      · split
        · rfl
        · split
          · simp only [tcpShrinkZcSegment_shift _ _ _ _ ‹_›, Option.map_map]; rfl
          · simp only [tcpShrinkSegment_shift _ _ _ _ _ (Bool.of_not_eq_true ‹_›), Option.map_map]; rfl
      · exact ih { p with
          acked := if p.acked ≠ 0 && s.tcpFlags.fin then p.acked - 1 else p.acked,
          sndQueuelen := p.sndQueuelen - pbufClen s.p }
    · rfl

theorem tcpWindowUpdate_shift (p : Pcb) (d : InData) :
    tcpWindowUpdate (σ.pcb p) (σ.inData d) = (σ.pcb (tcpWindowUpdate p d).1, (tcpWindowUpdate p d).2) := by
  unfold tcpWindowUpdate
  simp only [SeqShift.pcb_sndWl1, SeqShift.pcb_sndWl2, SeqShift.inData_seqno, SeqShift.inData_ackno,
    SeqShift.inData_tcphdr, TcpHdr.shift_wnd, tcpSeqLt_add_add, beq_add_add, Pcb.sndWndScale,
    SeqShift.pcb_sndScale, SeqShift.pcb_sndWnd, SeqShift.pcb_sndWndMax, SeqShift.pcb_persistBackoff]
  split_ifs <;> rfl

theorem ccApply_shift (p : Pcb) (r : U32 × U32) : ccApply (σ.pcb p) r = σ.pcb (ccApply p r) := rfl

theorem emit_event_shift (c : Ctx) (e : Event) : (σ.ctx c).emit (σ.event e) = σ.ctx (c.emit e) := by
  simp only [Ctx.emit, SeqShift.ctx, List.map_append, List.map_cons, List.map_nil]

theorem emit_shift (c : Ctx) (e : Event) (he : σ.event e = e) : (σ.ctx c).emit e = σ.ctx (c.emit e) := by
  rw [← emit_event_shift, he]

theorem tcpRttSample_shift (env : Env) (c : Ctx) :
    tcpRttSample env (σ.ctx c) = σ.ctx (tcpRttSample env c) := by
  unfold tcpRttSample
  simp only [SeqShift.ctx_pcb, SeqShift.ctx_d, SeqShift.pcb_rttest, SeqShift.pcb_rtseq,
    SeqShift.inData_ackno, tcpSeqLt_add_add, SeqShift.pcb_sa, SeqShift.pcb_sv]
  split_ifs <;> rfl

theorem tcpAckUnsent_shift (c : Ctx) : tcpAckUnsent (σ.ctx c) = (tcpAckUnsent c).map σ.ctx := by
  simp only [tcpAckUnsent, SeqShift.ctx_pcb, SeqShift.ctx_d, SeqShift.inData_ackno,
    SeqShift.pcb_unsent, ackPartialOrWholeSegment_shift, Option.map_eq_map, Option.map_map]
  rfl

theorem TcpSeg.shift_setFin (a b : U32) (s : TcpSeg) (f : Bool) :
    (s.shift a b).setFin f = (s.setFin f).shift a b := rfl

theorem oosDropCovered_shift (seqno : U32) (cseg : TcpSeg) (q : List TcpSeg) :
    oosDropCovered (seqno + σ.rcv) (σ.inSeg cseg) (q.map σ.inSeg) =
      Prod.map σ.inSeg (List.map σ.inSeg) (oosDropCovered seqno cseg q) := by
  induction q generalizing cseg with
  | nil => rfl
  | cons n r ih =>
    simp only [List.map_cons, oosDropCovered, TcpSeg.shift_len, TcpSeg.shift_start, TcpSeg.shift_tcphdr,
      TcpHdr.shift_flags, add_shift_comm _ _ σ.rcv, tcpSeqGeq_add_add]
    split_ifs
    · exact ih (cseg.setFin true)
    · exact ih cseg
    · rfl

theorem tcpOosInsertSegment_shift (seqno : U32) (cseg : TcpSeg) (q : List TcpSeg) :
    tcpOosInsertSegment (seqno + σ.rcv) (σ.inSeg cseg) (q.map σ.inSeg) =
      (tcpOosInsertSegment seqno cseg q).map (List.map σ.inSeg) := by
  unfold tcpOosInsertSegment
  simp only [TcpSeg.shift_tcphdr, TcpHdr.shift_flags, oosDropCovered_shift]
  split
  · rfl
  · rcases oosDropCovered seqno cseg q with ⟨cs, _ | ⟨n, rest⟩⟩
    · rfl
    · simp only [Prod.map, List.map_cons, TcpSeg.shift_len, TcpSeg.shift_start, add_shift_comm _ _ σ.rcv,
        tcpSeqGt_add_add, sub_add_add_right, TcpSeg.shift_p]
      split
      · simp only [Option.map_eq_map, Option.map_map]; rfl
      · rfl

theorem ooseqAppend_shift (env : Env) (rcvRight : U32) (d : InData) (next : TcpSeg) :
    ooseqAppend env (rcvRight + σ.rcv) (σ.inData d) (σ.inSeg next) =
      (ooseqAppend env rcvRight d next).map (Prod.map (List.map σ.inSeg) id) := by
  unfold ooseqAppend
  simp only [TcpSeg.shift_tcphdr, TcpHdr.shift_flags, TcpSeg.shift_start, TcpSeg.shift_len, TcpSeg.shift_p,
    SeqShift.inData_seqno, SeqShift.inData_tcplen, SeqShift.inData_inseg, add_shift_comm _ _ σ.rcv,
    tcpSeqGt_add_add, sub_add_add_right, Option.bind_eq_bind]
  split
  · rfl
  · split <;> split <;>
      simp only [Option.map_eq_map, Option.map_map, Option.bind_map, Option.map_bind, Function.comp_def,
        Option.map_some'] <;> rfl

theorem ooseqPlace_shift (env : Env) (rcvRight : U32) (d : InData) (prev : Option TcpSeg)
    (q : List TcpSeg) :
    ooseqPlace env (rcvRight + σ.rcv) (σ.inData d) (prev.map σ.inSeg) (q.map σ.inSeg) =
      (ooseqPlace env rcvRight d prev q).map (Prod.map (List.map σ.inSeg) id) := by
  induction q generalizing prev with
  | nil => cases prev <;> rfl
  | cons n r ih =>
    have ih' := ih (some n)
    have hins := tcpOosInsertSegment_shift σ d.seqno d.inseg (n :: r)
    simp only [Option.map_some'] at ih'
    simp only [List.map_cons] at hins
    rcases prev with _ | pv <;>
    simp only [ooseqPlace, Option.map_some', Option.map_none', Option.toList_some, Option.toList_none,
      List.map_cons, SeqShift.inData_seqno, SeqShift.inData_inseg, SeqShift.inData_tcplen, TcpSeg.shift_start,
      TcpSeg.shift_len, TcpSeg.shift_p, add_left_inj, List.map_eq_nil_iff, tcpSeqGt_add_add, tcpSeqLt_add_add,
      add_shift_comm _ _ σ.rcv, sub_add_add_right, ih', ooseqAppend_shift, hins] <;>
    try simp only [add_sub_shift_comm _ _ σ.rcv, tcpSeqBetween_add_add]
    all_goals split_ifs <;>
      simp only [Option.map_eq_map, Option.bind_eq_bind, Option.map_map, Option.bind_map, Option.map_bind,
        Function.comp_def, Option.map_some', Option.some_bind] <;>
      rfl

theorem tcpTrimLeftEdge_shift (c : Ctx) : tcpTrimLeftEdge (σ.ctx c) = (tcpTrimLeftEdge c).map σ.ctx := by
  unfold tcpTrimLeftEdge
  simp only [SeqShift.ctx_pcb, SeqShift.ctx_d, SeqShift.pcb_rcvNxt, SeqShift.inData_seqno,
    SeqShift.inData_tcplen, SeqShift.inData_inseg, TcpSeg.shift_p, add_shift_comm _ _ σ.rcv, sub_add_add_right,
    tcpSeqLt_add_add]
  simp only [add_sub_shift_comm _ _ σ.rcv, tcpSeqBetween_add_add]
  split_ifs
  · simp only [Option.map_eq_map, Option.map_map]; rfl
  · rfl
  · rfl

theorem tcpTrimToWindow_shift (c : Ctx) : tcpTrimToWindow (σ.ctx c) = (tcpTrimToWindow c).map σ.ctx := by
  unfold tcpTrimToWindow
  simp only [SeqShift.ctx_pcb, SeqShift.ctx_d, SeqShift.pcb_rcvWnd, SeqShift.inData_inseg,
    TcpSeg.shift_tcplen, TcpSeg.shift_setFin, TcpSeg.shift_tcphdr, TcpHdr.shift_flags, TcpSeg.shift_p]
  split_ifs
  · simp only [Option.map_eq_map, Option.map_map]; rfl
  · simp only [Option.map_eq_map, Option.map_map]; rfl
  · rfl

theorem inseqDropCovered_shift (seqno : U32) (seg : TcpSeg) (tcplen : U16) (q : List TcpSeg) :
    inseqDropCovered (seqno + σ.rcv) (σ.inSeg seg) tcplen (q.map σ.inSeg) =
      Prod.map σ.inSeg (Prod.map id (List.map σ.inSeg)) (inseqDropCovered seqno seg tcplen q) := by
  induction q generalizing seg tcplen with
  | nil => rfl
  | cons n r ih =>
    simp only [List.map_cons, inseqDropCovered, TcpSeg.shift_len, TcpSeg.shift_start, TcpSeg.shift_tcphdr,
      TcpHdr.shift_flags, TcpSeg.shift_setFin, TcpSeg.shift_tcplen, add_shift_comm _ _ σ.rcv, tcpSeqGeq_add_add]
    split_ifs
    · exact ih _ _
    · exact ih _ _
    · rfl

theorem tcpTrimToOoseq_shift (c : Ctx) : tcpTrimToOoseq (σ.ctx c) = (tcpTrimToOoseq c).map σ.ctx := by
  unfold tcpTrimToOoseq
  simp only [SeqShift.ctx_pcb, SeqShift.ctx_d, SeqShift.pcb_ooseq, SeqShift.inData_inseg,
    SeqShift.inData_seqno, SeqShift.inData_tcplen, TcpSeg.shift_tcphdr, TcpHdr.shift_flags,
    List.map_eq_nil_iff, inseqDropCovered_shift]
  split_ifs
  · rfl
  · rfl
  · rcases inseqDropCovered c.d.seqno c.d.inseg c.d.tcplen c.pcb.ooseq with ⟨seg, t, _ | ⟨n, rest⟩⟩
    · rfl
    · simp only [Prod.map, id, List.map_cons, TcpSeg.shift_start, TcpSeg.shift_tcphdr, TcpHdr.shift_flags,
        TcpSeg.shift_p, add_shift_comm _ _ σ.rcv, tcpSeqGt_add_add, sub_add_add_right]
      split_ifs
      · simp only [Option.map_eq_map, Option.map_map]; rfl
      · simp only [Option.map_eq_map, Option.map_map]; rfl
      · rfl

theorem drainStep_shift (cseg : TcpSeg) (c : Ctx) :
    drainStep (σ.inSeg cseg) (σ.ctx c) = σ.ctx (drainStep cseg c) := by
  simp only [drainStep, SeqShift.ctx_pcb, SeqShift.ctx_d, SeqShift.pcb_rcvNxt, TcpSeg.shift_tcplen,
    TcpSeg.shift_tcphdr, TcpHdr.shift_flags, TcpSeg.shift_start, TcpSeg.shift_p, add_shift_comm _ _ σ.rcv]
  rfl

theorem tcpDrainOoseq_shift (q : List TcpSeg) (c : Ctx) :
    tcpDrainOoseq (q.map σ.inSeg) (σ.ctx c) = σ.ctx (tcpDrainOoseq q c) := by
  induction q generalizing c with
  | nil => rfl
  | cons s r ih =>
    simp only [List.map_cons, tcpDrainOoseq, TcpSeg.shift_start, SeqShift.ctx_pcb, SeqShift.pcb_rcvNxt,
      add_left_inj, drainStep_shift, ih]
    split_ifs <;> rfl

theorem tcpAcceptInSeq_shift (c : Ctx) : tcpAcceptInSeq (σ.ctx c) = σ.ctx (tcpAcceptInSeq c) := by
  simp only [tcpAcceptInSeq, SeqShift.ctx_d, SeqShift.inData_seqno, SeqShift.inData_tcplen,
    SeqShift.inData_inseg, TcpSeg.shift_p, TcpSeg.shift_tcphdr, TcpHdr.shift_flags, add_shift_comm _ _ σ.rcv]
  split_ifs <;> rfl

theorem tcpQuickack_shift (cfg : Config) (p : Pcb) (d : InData) :
    tcpQuickack cfg (σ.pcb p) (σ.inData d) = tcpQuickack cfg p d := rfl

theorem tcpAckDelivered_shift (cfg : Config) (c : Ctx) :
    tcpAckDelivered cfg (σ.ctx c) = σ.ctx (tcpAckDelivered cfg c) := by
  unfold tcpAckDelivered Ctx.ack
  simp only [SeqShift.ctx_d, SeqShift.inData_recvData, SeqShift.ctx_pcb, SeqShift.pcb_flags, tcpQuickack_shift]
  split_ifs <;> rfl

theorem tcpReceiveInSeq_shift (cfg : Config) (c : Ctx) :
    tcpReceiveInSeq cfg (σ.ctx c) = (tcpReceiveInSeq cfg c).map σ.ctx := by
  simp only [tcpReceiveInSeq, Option.bind_eq_bind, tcpTrimToWindow_shift, Option.bind_map, Option.map_bind,
    Function.comp_def, tcpTrimToOoseq_shift, tcpAcceptInSeq_shift, SeqShift.ctx_pcb, SeqShift.pcb_ooseq,
    tcpDrainOoseq_shift, tcpAckDelivered_shift, Option.map_some']

theorem ooseqPlace_none_shift (env : Env) (rcvRight : U32) (d : InData) (q : List TcpSeg) :
    ooseqPlace env (rcvRight + σ.rcv) (σ.inData d) none (q.map σ.inSeg) =
      (ooseqPlace env rcvRight d none q).map (Prod.map (List.map σ.inSeg) id) :=
  ooseqPlace_shift σ env rcvRight d none q

theorem tcpReceiveOoseq_shift (env : Env) (c : Ctx) :
    tcpReceiveOoseq env (σ.ctx c) = (tcpReceiveOoseq env c).map σ.ctx := by
  simp only [tcpReceiveOoseq, emit_shift σ c .sendEmptyAck rfl, SeqShift.ctx_pcb, SeqShift.ctx_d,
    SeqShift.pcb_ooseq, SeqShift.pcb_rcvNxt, SeqShift.pcb_rcvWnd, List.map_eq_nil_iff, add_shift_comm _ _ σ.rcv,
    ooseqPlace_none_shift, Option.map_eq_map]
  split_ifs <;> first | rfl | (rw [Option.map_map, Option.map_map]; rfl)

theorem tcpReceiveData_shift (cfg : Config) (env : Env) (c : Ctx) :
    tcpReceiveData cfg env (σ.ctx c) = (tcpReceiveData cfg env c).map σ.ctx := by
  simp only [tcpReceiveData, Option.bind_eq_bind, tcpTrimLeftEdge_shift, Option.bind_map, Option.map_bind,
    Function.comp_def, SeqShift.ctx_pcb, SeqShift.ctx_d, SeqShift.pcb_rcvNxt, SeqShift.pcb_rcvWnd,
    SeqShift.inData_seqno, add_shift_comm _ _ σ.rcv, add_left_inj]
  simp only [add_sub_shift_comm _ _ σ.rcv, tcpSeqBetween_add_add]
  congr 1
  funext c'
  split_ifs
  · exact tcpReceiveInSeq_shift σ cfg c'
  · exact tcpReceiveOoseq_shift σ env c'
  · exact congrArg some (emit_shift σ c' .sendEmptyAck rfl)

theorem parseoptStep_shift (cfg : Config) (d : InData) (maxC c : Nat) (p : Pcb) :
    parseoptStep cfg (σ.inData d) maxC c (σ.pcb p) = (parseoptStep cfg d maxC c p).map (Prod.map σ.pcb id) := by
  unfold parseoptStep
  simp only [SeqShift.inData_tcphdr, TcpHdr.shift_opts, SeqShift.inData_flags, SeqShift.pcb_advtsdMss,
    SeqShift.pcb_flags, SeqShift.pcb_enableTsOpt, SeqShift.pcb_tsLastacksent, SeqShift.inData_seqno,
    SeqShift.inData_tcplen, add_shift_comm _ _ σ.rcv, tcpSeqBetween_add_add]
  split <;> (try split_ifs) <;> rfl

theorem parseoptWalk_shift (cfg : Config) (d : InData) (maxC : Nat) :
    ∀ fuel c p, parseoptWalk cfg (σ.inData d) maxC fuel c (σ.pcb p) = σ.pcb (parseoptWalk cfg d maxC fuel c p)
  | 0, _, _ => rfl
  | fuel + 1, c, p => by
    simp only [parseoptWalk, parseoptStep_shift]
    split_ifs
    · rcases parseoptStep cfg d maxC c p with _ | ⟨p', c'⟩
      · rfl
      · exact parseoptWalk_shift cfg d maxC fuel c' p'
    · rfl

theorem tcpParseopt_shift (cfg : Config) (d : InData) (p : Pcb) :
    tcpParseopt cfg (σ.inData d) (σ.pcb p) = σ.pcb (tcpParseopt cfg d p) := by
  simp only [tcpParseopt, SeqShift.inData_tcphdr, TcpHdr.shift_hdrlen]
  split_ifs
  · exact parseoptWalk_shift σ cfg d _ _ _ _
  · rfl

theorem ackNow_shift (c : Ctx) : (σ.ctx c).ackNow = σ.ctx c.ackNow := rfl

theorem Pcb.purge_shift (p : Pcb) : (σ.pcb p).purge = σ.pcb p.purge := by
  unfold Pcb.purge
  simp only [SeqShift.pcb_state]
  split_ifs <;> rfl

theorem ackedSndNxt_shift (c : Ctx) : (σ.ctx c).ackedSndNxt = c.ackedSndNxt := by
  simp only [Ctx.ackedSndNxt, SeqShift.ctx_d, SeqShift.ctx_pcb, SeqShift.inData_flags, SeqShift.inData_ackno,
    SeqShift.pcb_sndNxt, beq_add_add]

theorem rstReply_shift (c : Ctx) (s : U32) : (σ.ctx c).rstReply (s + σ.snd) = σ.ctx (c.rstReply s) := by
  simp only [Ctx.rstReply, SeqShift.ctx_d, SeqShift.inData_seqno, SeqShift.inData_tcplen,
    SeqShift.inData_tcphdr, TcpHdr.shift_dest, TcpHdr.shift_src, add_shift_comm _ _ σ.rcv]
  exact emit_event_shift σ c (.rst s (c.d.seqno + c.d.tcplen.setWidth 32) c.d.tcphdr.dest c.d.tcphdr.src)

theorem rstAcceptable_shift (p : Pcb) (d : InData) :
    rstAcceptable (σ.pcb p) (σ.inData d) = rstAcceptable p d := by
  simp only [rstAcceptable, SeqShift.pcb_state, SeqShift.inData_ackno, SeqShift.pcb_sndNxt, beq_add_add,
    SeqShift.inData_seqno, SeqShift.pcb_rcvNxt, SeqShift.pcb_rcvWnd, add_shift_comm _ _ σ.rcv,
    tcpSeqBetween_add_add]

theorem tcpSyncedTransition_shift (st : TcpState) (c : Ctx) :
    tcpSyncedTransition st (σ.ctx c) = σ.ctx (tcpSyncedTransition st c) := by
  have hf : (σ.ctx c).gotFin = c.gotFin := rfl
  have ha : (σ.ctx c).ackNow = σ.ctx c.ackNow := rfl
  cases st <;> simp only [tcpSyncedTransition, hf, ackedSndNxt_shift, ha, SeqShift.ctx_pcb, Pcb.purge_shift] <;>
    (try split_ifs) <;> rfl

theorem tcpProcessPrepare_shift (cfg : Config) (env : Env) (c : Ctx) :
    tcpProcessPrepare cfg env (σ.ctx c) = σ.ctx (tcpProcessPrepare cfg env c) := by
  unfold tcpProcessPrepare
  simp only [SeqShift.ctx_pcb, SeqShift.pcb_flags, SeqShift.ctx_d]
  split_ifs
  · exact congrArg (fun p => { σ.ctx c with pcb := p }) (tcpParseopt_shift σ cfg c.d { c.pcb with keepCntSent := 0 })
  · exact congrArg (fun p => { σ.ctx c with pcb := p })
      (tcpParseopt_shift σ cfg c.d { c.pcb with tmr := env.ticks, keepCntSent := 0 })

theorem TcpSeg.shift_shift_neg (a b : U32) (s : TcpSeg) : (s.shift a b).shift (-a) (-b) = s := by
  simp only [TcpSeg.shift, TcpHdr.shift, add_neg_cancel_right]

theorem SeqShift.neg_pcb (p : Pcb) : σ.neg.pcb (σ.pcb p) = p := by
  simp only [SeqShift.pcb, SeqShift.neg, SeqShift.outSeg, SeqShift.inSeg, add_neg_cancel_right, List.map_map,
    Function.comp_def, TcpSeg.shift_shift_neg, TcpSeg.shiftOut_shiftOut_neg, List.map_id']

theorem synWindows_shift (cfg : Config) (d : InData) (p : Pcb) :
    synWindows cfg (σ.inData d) (σ.pcb p) = σ.pcb (synWindows cfg d p) := by
  unfold synWindows
  rw [tcpParseopt_shift]
  rfl

theorem tcpListenInput_shift (cfg : Config) (env : Env) (pcb : Pcb) (d : InData) :
    tcpListenInput cfg (σ.env env) (σ.pcb pcb) (σ.inData d) =
      Prod.map (Option.map σ.pcb) (List.map σ.event) (tcpListenInput cfg env pcb d) := by
  unfold tcpListenInput
  simp only [SeqShift.inData_flags, SeqShift.env_clone, SeqShift.inData_ackno, SeqShift.inData_seqno,
    SeqShift.inData_tcplen, add_shift_comm _ _ σ.snd, add_shift_comm _ _ σ.rcv, add_sub_shift_comm _ _ σ.rcv,
    SeqShift.env_synReceivedErr, SeqShift.env_enqueueErr]
  rcases env.clone with _ | n <;> simp only [Option.map_none', Option.map_some'] <;> split_ifs <;>
    simp only [Prod.map_apply, Option.map_some', ← synWindows_shift] <;> rfl

theorem twReusable_shift (p : Pcb) (d : InData) (ts : Option U32) :
    twReusable (σ.pcb p) (σ.inData d) ts = twReusable p d ts := by
  simp only [twReusable, SeqShift.pcb_flags, SeqShift.pcb_tsRecent, SeqShift.inData_seqno, SeqShift.pcb_rcvNxt,
    tcpSeqGeq_add_add, SeqShift.pcb_synTwHandledCb]

theorem tcpPcbReuse_shift (cfg : Config) (env : Env) (c : Ctx) :
    tcpPcbReuse cfg (σ.env env) (σ.ctx c) = Prod.map σ.ctx id (tcpPcbReuse cfg env c) := by
  unfold tcpPcbReuse
  simp only [SeqShift.env_recycle, SeqShift.ctx_pcb, SeqShift.neg_pcb, SeqShift.ctx_d, SeqShift.inData_seqno,
    add_shift_comm _ _ σ.rcv, add_sub_shift_comm _ _ σ.rcv, SeqShift.env_sendMss, SeqShift.env_synTwHandledErr,
    SeqShift.env_enqueueErr]
  split_ifs <;> simp only [Prod.map_apply, id, ← emit_event_shift] <;>
    simp only [SeqShift.ctx, ← synWindows_shift] <;> rfl

theorem tcpTimewaitInput_shift (cfg : Config) (env : Env) (c : Ctx) :
    tcpTimewaitInput cfg (σ.env env) (σ.ctx c) = (tcpTimewaitInput cfg env c).map (Prod.map σ.ctx id) := by
  unfold tcpTimewaitInput
  simp only [SeqShift.ctx_d, SeqShift.inData_flags, SeqShift.inData_tcphdr, TcpHdr.shift_opts,
    TcpHdr.shift_hdrlen, SeqShift.ctx_pcb, twReusable_shift, tcpPcbReuse_shift, SeqShift.inData_tcplen,
    SeqShift.env_ticks, SeqShift.inData_ackno, Option.map_eq_map, Option.map_map]
  split_ifs <;> simp only [Option.map_some', Option.map_map, Prod.map_apply, id, ← rstReply_shift,
    ← emit_event_shift, ← ackNow_shift]
  all_goals first
    | rfl
    | congr 1
      funext ts
      simp only [Function.comp]
      split_ifs <;> rfl

variable {cfg : Config} (hcc : cfg.cc.SeqFree)
include hcc

theorem tcpDupAck_shift (c : Ctx) (e : U32) :
    tcpDupAck cfg (σ.ctx c) (e + σ.snd) = σ.ctx (tcpDupAck cfg c e) := by
  unfold tcpDupAck
  simp only [SeqShift.ctx_pcb, SeqShift.ctx_d, SeqShift.ctx_ev, SeqShift.pcb_sndWl2, SeqShift.pcb_sndWnd,
    SeqShift.inData_tcplen, SeqShift.pcb_rtime, SeqShift.pcb_lastack, SeqShift.inData_ackno,
    SeqShift.pcb_dupacks, SeqShift.pcb_rcvNxt, SeqShift.pcb_rcvAnnRightEdge, SeqShift.pcb_sndNxt,
    SeqShift.pcb_sndWl1, SeqShift.pcb_rtseq, SeqShift.pcb_tsLastacksent, SeqShift.pcb_unacked,
    SeqShift.pcb_unsent, SeqShift.pcb_ooseq, add_shift_comm _ _ σ.snd, beq_add_add]
  simp only [SeqShift.pcb_fold, hcc.ackReceived, ccApply_shift, SeqShift.ctx_fold]
  split_ifs <;> (try simp only [emit_shift, SeqShift.event]) <;> rfl

theorem tcpNewAck_shift (c : Ctx) (persist : Bool) :
    tcpNewAck cfg (σ.ctx c) persist = (tcpNewAck cfg c persist).map σ.ctx := by
  unfold tcpNewAck
  cases hinf : c.pcb.flags.infr <;>
  simp only [SeqShift.ctx_pcb, SeqShift.ctx_d, SeqShift.ctx_ev, SeqShift.pcb_rcvNxt,
    SeqShift.pcb_rcvAnnRightEdge, SeqShift.pcb_sndNxt, SeqShift.pcb_lastack, SeqShift.pcb_sndWl1,
    SeqShift.pcb_sndWl2, SeqShift.pcb_rtseq, SeqShift.pcb_tsLastacksent, SeqShift.pcb_unacked,
    SeqShift.pcb_unsent, SeqShift.pcb_ooseq, SeqShift.inData_seqno, SeqShift.inData_ackno,
    SeqShift.inData_tcphdr, SeqShift.inData_inseg, sub_add_add_right, SeqShift.pcb_flags, hinf, if_true,
    Bool.false_eq_true, if_false, hcc.postRecovery, SeqShift.pcb_sa, SeqShift.pcb_sv, SeqShift.pcb_sndBuf,
    SeqShift.pcb_state, ccApply_shift] <;>
  split_ifs <;>
  simp only [SeqShift.ctx_pcb, SeqShift.ctx_d, SeqShift.ctx_ev, SeqShift.pcb_rcvNxt,
    SeqShift.pcb_rcvAnnRightEdge, SeqShift.pcb_sndNxt, SeqShift.pcb_lastack, SeqShift.pcb_sndWl1,
    SeqShift.pcb_sndWl2, SeqShift.pcb_rtseq, SeqShift.pcb_tsLastacksent, SeqShift.pcb_unacked,
    SeqShift.pcb_unsent, SeqShift.pcb_ooseq, SeqShift.inData_seqno, SeqShift.inData_ackno,
    SeqShift.inData_tcphdr, SeqShift.inData_inseg, sub_add_add_right, SeqShift.pcb_fold, hcc.ackReceived,
    ccApply_shift, ackPartialOrWholeSegment_shift, Option.bind_eq_bind, Option.bind_map, Option.map_bind] <;>
  congr 1 <;>
  first
    | rfl
    | funext ⟨p, q⟩
      simp only [Function.comp, Option.map_some', List.map_eq_nil_iff]
      split <;> rfl

theorem tcpAckClassify_shift (c : Ctx) (e : U32) (persist : Bool) :
    tcpAckClassify cfg (σ.ctx c) (e + σ.snd) persist = (tcpAckClassify cfg c e persist).map σ.ctx := by
  unfold tcpAckClassify
  simp only [SeqShift.ctx_pcb, SeqShift.ctx_d, SeqShift.inData_ackno, SeqShift.pcb_lastack,
    SeqShift.pcb_sndNxt, add_shift_comm _ _ σ.snd, tcpSeqLeq_add_add, tcpSeqBetween_add_add]
  split_ifs
  · exact congrArg some (tcpDupAck_shift σ hcc c e)
  · exact tcpNewAck_shift σ hcc c persist
  · exact congrArg some (emit_shift σ { c with pcb := { c.pcb with acked := 0 } } .sendEmptyAck rfl)

theorem tcpReceiveAck_shift (env : Env) (c : Ctx) :
    tcpReceiveAck cfg env (σ.ctx c) = (tcpReceiveAck cfg env c).map σ.ctx := by
  simp only [tcpReceiveAck, SeqShift.ctx_pcb, SeqShift.ctx_d, SeqShift.ctx_ev, tcpWindowUpdate_shift,
    SeqShift.pcb_sndWnd, SeqShift.pcb_sndWl2, ← BitVec.add_assoc, SeqShift.ctx_fold, tcpAckClassify_shift σ hcc,
    Option.bind_eq_bind, Option.bind_map, Option.map_bind, Function.comp, tcpAckUnsent_shift,
    tcpRttSample_shift, Option.map_some']

theorem tcpReceive_shift (env : Env) (c : Ctx) :
    tcpReceive cfg env (σ.ctx c) = (tcpReceive cfg env c).map σ.ctx := by
  unfold tcpReceive
  have hack : (if (σ.ctx c).d.flags.ack then tcpReceiveAck cfg env (σ.ctx c) else some (σ.ctx c)) =
      (if c.d.flags.ack then tcpReceiveAck cfg env c else some c).map σ.ctx := by
    rw [SeqShift.ctx_d, SeqShift.inData_flags]
    split_ifs
    · exact tcpReceiveAck_shift σ hcc env c
    · rfl
  rw [hack, Option.bind_map, Option.map_bind]
  congr 1
  funext c'
  simp only [Function.comp, SeqShift.ctx_pcb, SeqShift.ctx_d, SeqShift.pcb_rcvNxt, SeqShift.pcb_rcvWnd,
    SeqShift.inData_seqno, SeqShift.inData_tcplen, SeqShift.pcb_state, add_shift_comm _ _ σ.rcv]
  simp only [add_sub_shift_comm _ _ σ.rcv, tcpSeqBetween_add_add]
  split_ifs
  · exact tcpReceiveData_shift σ cfg env c'
  · rfl
  · rfl

theorem tcpSynSentEstablish_shift (env : Env) (c : Ctx) :
    tcpSynSentEstablish cfg env (σ.ctx c) = Prod.map σ.ctx id (tcpSynSentEstablish cfg env c) := by
  unfold tcpSynSentEstablish
  -- zeta-reduce with `dsimp`: the kernel checks a `simp` zeta step over these six nested PCB
  -- updates very slowly
  dsimp only [SeqShift.ctx_pcb, SeqShift.ctx_d, SeqShift.ctx_ev, SeqShift.inData_seqno, SeqShift.inData_ackno,
    SeqShift.inData_tcphdr, TcpHdr.shift_wnd, Pcb.sndWndScale, Pcb.updateByMss, SeqShift.pcb_sndScale,
    SeqShift.pcb_mss, SeqShift.pcb_unacked, SeqShift.pcb_sndQueuelen, ccApply]
  simp only [add_shift_comm _ _ σ.rcv, add_sub_shift_comm _ _ σ.rcv, ← List.map_tail, List.map_eq_nil_iff]
  split_ifs <;> simp only [Prod.map_apply, id, ← ackNow_shift, ← emit_event_shift] <;>
    (conv_rhs => rw [← hcc.connInit σ]) <;> rfl

theorem tcpProcessSynSent_shift (env : Env) (c : Ctx) :
    tcpProcessSynSent cfg env (σ.ctx c) = (tcpProcessSynSent cfg env c).map (Prod.map σ.ctx id) := by
  unfold tcpProcessSynSent
  simp only [SeqShift.ctx_d, SeqShift.inData_flags, SeqShift.ctx_pcb, SeqShift.pcb_unacked,
    SeqShift.inData_ackno]
  split_ifs
  · rcases c.pcb.unacked with _ | ⟨rseg, rest⟩
    · rfl
    · simp only [List.map_cons, List.head?_cons, Option.map_some', TcpSeg.shiftOut_seqno,
        add_shift_comm _ _ σ.snd, add_left_inj]
      split_ifs
      · exact congrArg some (tcpSynSentEstablish_shift σ hcc env c)
      · exact congrArg some (Prod.ext (rstReply_shift σ c c.d.ackno) rfl)
  · exact congrArg some (Prod.ext (rstReply_shift σ c c.d.ackno) rfl)
  · rfl

theorem tcpSynRcvdAccepted_shift (env : Env) (c : Ctx) :
    tcpSynRcvdAccepted cfg env (σ.ctx c) = (tcpSynRcvdAccepted cfg env c).map σ.ctx := by
  unfold tcpSynRcvdAccepted
  rw [tcpReceive_shift σ hcc, Option.map_map, Option.map_map]
  congr 1
  funext c'
  simp only [Function.comp, SeqShift.ctx_pcb, SeqShift.pcb_acked, SeqShift.pcb_cwnd, ccApply, Ctx.gotFin,
    SeqShift.ctx_d, SeqShift.inData_recvFlags]
  split_ifs <;> (conv_rhs => rw [← hcc.connInit σ]) <;> rfl

theorem tcpProcessSynRcvd_shift (env : Env) (c : Ctx) :
    tcpProcessSynRcvd cfg env (σ.ctx c) = (tcpProcessSynRcvd cfg env c).map (Prod.map σ.ctx id) := by
  have ha : ((σ.ctx c).setState .established).emit .accept =
      σ.ctx ((c.setState .established).emit .accept) := emit_shift σ (c.setState .established) .accept rfl
  unfold tcpProcessSynRcvd
  simp only [ha, SeqShift.ctx_d, SeqShift.inData_flags, SeqShift.inData_ackno, SeqShift.ctx_pcb,
    SeqShift.pcb_lastack, SeqShift.pcb_sndNxt, SeqShift.inData_seqno, SeqShift.pcb_rcvNxt,
    add_shift_comm _ _ σ.snd, add_sub_shift_comm _ _ σ.rcv, tcpSeqBetween_add_add, beq_add_add,
    tcpSynRcvdAccepted_shift σ hcc, Option.map_eq_map, Option.map_map]
  split_ifs <;>
    simp only [Option.map_some', Option.map_map, Prod.map_apply, id, ← emit_event_shift, ← rstReply_shift] <;> rfl

theorem tcpProcessSynced_shift (env : Env) (c : Ctx) :
    tcpProcessSynced cfg env (σ.ctx c) = (tcpProcessSynced cfg env c).map σ.ctx := by
  simp only [tcpProcessSynced, tcpReceive_shift σ hcc, Option.map_map, SeqShift.ctx_pcb, SeqShift.pcb_state]
  congr 1
  funext c'
  exact tcpSyncedTransition_shift σ _ c'

theorem tcpProcessState_shift (env : Env) (c : Ctx) :
    tcpProcessState cfg env (σ.ctx c) = (tcpProcessState cfg env c).map (Prod.map σ.ctx id) := by
  unfold tcpProcessState
  simp only [SeqShift.ctx_pcb, SeqShift.pcb_state]
  rcases hs : c.pcb.state <;> simp only [hs]
  all_goals first
    | rfl
    | exact tcpProcessSynSent_shift σ hcc env c
    | exact tcpProcessSynRcvd_shift σ hcc env c
    | simp only [tcpProcessSynced_shift σ hcc, Option.map_eq_map, Option.map_map]; rfl

theorem tcpProcess_shift (env : Env) (c : Ctx) :
    tcpProcess cfg env (σ.ctx c) = (tcpProcess cfg env c).map (Prod.map σ.ctx id) := by
  unfold tcpProcess
  simp only [SeqShift.ctx_pcb, SeqShift.ctx_d, SeqShift.inData_flags, rstAcceptable_shift, SeqShift.pcb_state,
    tcpProcessPrepare_shift, tcpProcessState_shift σ hcc]
  split_ifs <;> rfl

/-- Shifting the sequence spaces before `tcp_process`, `tcp_receive`, `tcp_timewait_input` or
`tcp_listen_input` gives the shifted result: same state, windows, counters, flags and queues,
with the emitted RST fields moved by the same amounts. -/
theorem input_shift_equivariant (env : Env) (c : Ctx) (pcb : Pcb) (d : InData) :
    tcpProcess cfg env (σ.ctx c) = (tcpProcess cfg env c).map (Prod.map σ.ctx id) ∧
    tcpReceive cfg env (σ.ctx c) = (tcpReceive cfg env c).map σ.ctx ∧
    tcpTimewaitInput cfg (σ.env env) (σ.ctx c) = (tcpTimewaitInput cfg env c).map (Prod.map σ.ctx id) ∧
    tcpListenInput cfg (σ.env env) (σ.pcb pcb) (σ.inData d) =
      Prod.map (Option.map σ.pcb) (List.map σ.event) (tcpListenInput cfg env pcb d) :=
  ⟨tcpProcess_shift σ hcc env c, tcpReceive_shift σ hcc env c, tcpTimewaitInput_shift σ cfg env c,
    tcpListenInput_shift σ cfg env pcb d⟩

end

/-- Both spaces moved across the 2^31 boundary. -/
def sampleShift : SeqShift := ⟨0x80000000, 0xFFFFFF00⟩

def sampleShiftCtx : Ctx := ⟨sampleEstPcb, sampleFinIn, []⟩

theorem input_shift_equivariant_sample :
    ({} : Config).cc.SeqFree ∧
    (tcpProcess {} {} (sampleShift.ctx sampleShiftCtx) =
        (tcpProcess {} {} sampleShiftCtx).map (Prod.map sampleShift.ctx id) ∧
      tcpReceive {} {} (sampleShift.ctx sampleShiftCtx) =
        (tcpReceive {} {} sampleShiftCtx).map sampleShift.ctx ∧
      tcpTimewaitInput {} (sampleShift.env {}) (sampleShift.ctx sampleShiftCtx) =
        (tcpTimewaitInput {} {} sampleShiftCtx).map (Prod.map sampleShift.ctx id) ∧
      tcpListenInput {} (sampleShift.env {}) (sampleShift.pcb sampleEstPcb) (sampleShift.inData sampleFinIn) =
        Prod.map (Option.map sampleShift.pcb) (List.map sampleShift.event)
          (tcpListenInput {} {} sampleEstPcb sampleFinIn)) :=
  ⟨noneCcAlgo_seqFree,
    input_shift_equivariant sampleShift noneCcAlgo_seqFree {} sampleShiftCtx sampleEstPcb sampleFinIn⟩

end XlioTcp
