import XlioTcp.StateMachine

/-! What one ACK does to the send side. An ACK beyond `snd_nxt` acknowledges nothing: it is
answered by an empty ACK, but it still trims `unsent` and still closes an RTT measurement.
And `acked`, which the sent upcall reports, is written only by the ACK half of
`tcp_receive`: a segment that does not reach it reports the previous segment's count again. -/
namespace XlioTcp

theorem tcpWindowUpdate_sndSeq (pcb : Pcb) (d : InData) :
    (tcpWindowUpdate pcb d).1.lastack = pcb.lastack ∧ (tcpWindowUpdate pcb d).1.sndNxt = pcb.sndNxt := by
  unfold tcpWindowUpdate; dsimp only; split_ifs <;> exact ⟨rfl, rfl⟩

/-- The shrinker lowers `acked` only on a FIN while it is non-zero. -/
theorem ackPartialOrWholeSegment_acked_zero {pcb pcb' : Pcb} {ackno : U32} {q q' : List TcpSeg}
    (h0 : pcb.acked = 0) (h : ackPartialOrWholeSegment pcb ackno q = some (pcb', q')) :
    pcb'.acked = 0 := by
  induction q generalizing pcb with
  | nil => cases h; exact h0
  | cons s r ih =>
    unfold ackPartialOrWholeSegment at h
    split at h
    · split at h
      · split at h
        · cases h; exact h0
        · obtain ⟨⟨s', n⟩, -, h⟩ := Option.map_eq_some'.mp h
          cases h; exact h0
      · dsimp only at h
        exact ih (by simp [h0]) h
    · cases h; exact h0

section Beyond
variable {cfg : Config} {env : Env}

/-- The ACK half of `tcp_receive` on an ACK beyond `snd_nxt` (and beyond `lastack`): the window
update, `acked` cleared and an empty ACK; then `unsent` and `snd_queuelen` are what
`ack_partial_or_whole_segment` leaves, as for any ACK, and the RTT sample is taken when the timed
sequence number is below `ackno`. Nothing else changes. -/
theorem tcpReceiveAck_beyond_sndNxt (c c' : Ctx) (hgt : tcpSeqGt c.d.ackno c.pcb.sndNxt = true)
    (hgl : tcpSeqGt c.d.ackno c.pcb.lastack = true) (h : tcpReceiveAck cfg env c = some c') :
    c'.d = c.d ∧ c'.ev = c.ev ++ [.sendEmptyAck] ∧
      ∃ n q, ackPartialOrWholeSegment { (tcpWindowUpdate c.pcb c.d).1 with acked := 0 } c.d.ackno
          (tcpWindowUpdate c.pcb c.d).1.unsent = some ({ (tcpWindowUpdate c.pcb c.d).1 with acked := 0, sndQueuelen := n }, q) ∧
        c'.pcb = { (tcpRttSample env { c with pcb := { (tcpWindowUpdate c.pcb c.d).1 with acked := 0 } }).pcb with
          unsent := q, sndQueuelen := n } := by
  simp only [tcpReceiveAck, Option.bind_eq_bind, Option.bind_eq_some, Option.some.injEq] at h
  obtain ⟨c₁, h₁, c₂, h₂, rfl⟩ := h
  obtain ⟨hl, hn⟩ := tcpWindowUpdate_sndSeq c.pcb c.d
  have hc₁ : tcpSeqLeq c.d.ackno (tcpWindowUpdate c.pcb c.d).1.lastack = false := by
    rw [hl, tcpSeqLeq_eq_not_gt, hgl]; rfl
  have hc₂ : tcpSeqBetween c.d.ackno ((tcpWindowUpdate c.pcb c.d).1.lastack + 1)
      (tcpWindowUpdate c.pcb c.d).1.sndNxt = false := by
    simp only [tcpSeqBetween, hn, tcpSeqLeq_eq_not_gt, hgt, Bool.not_true, Bool.and_false]
  simp only [tcpAckClassify, hc₁, hc₂, Bool.false_eq_true, if_false, Option.some.injEq] at h₁
  subst h₁
  obtain ⟨⟨pcb, q⟩, hq, rfl⟩ := Option.map_eq_some'.mp h₂
  have hf := ackPartialOrWholeSegment_frame hq
  rw [ackPartialOrWholeSegment_acked_zero rfl hq] at hf
  rw [hf] at hq
  refine ⟨?_, ?_, pcb.sndQueuelen, q, hq, ?_⟩ <;> rw [hf] <;> unfold tcpRttSample <;> dsimp only [Ctx.emit] <;>
    split_ifs <;> rfl

end Beyond

/-- One segment of 100 bytes in flight, from 500. -/
def sampleFlightSeg : TcpSeg :=
  ⟨[⟨List.replicate 100 0, 100, 100, false⟩], { sampleUnsentFin.tcphdr with flags := { ack := true } },
    500, 100, false, { ack := true }⟩

/-- An established connection whose RTT measurement times sequence number 400, with 500 sent
and acknowledged and the hundred bytes from 500 queued on `unsent`, not yet sent. -/
def sampleTimedPcb : Pcb :=
  { sampleEstPcb with
    rttest := 3, rtseq := 400, sa := 24, sv := 8, rto := 11, unsent := [sampleFlightSeg], sndQueuelen := 1 }

/-- The peer acknowledges 600, the hundred bytes never sent. -/
def sampleBeyondCtx : Ctx := ⟨sampleTimedPcb, { sampleAckIn with ackno := 600 }, []⟩

/-- An ACK for the hundred bytes still on `unsent` is answered by an empty ACK, yet it frees the
segment that holds them, never sent, and ends the RTT measurement, moving the estimator. -/
theorem beyond_sndNxt_frees_unsent_and_moves_rtt :
    (tcpReceiveAck {} { ticks := 10 } sampleBeyondCtx).map
        (fun c => (c.ev, c.pcb.acked, c.pcb.unsent.length, c.pcb.sndQueuelen)) = some ([.sendEmptyAck], 0, 0, 0) ∧
      (tcpReceiveAck {} { ticks := 10 } sampleBeyondCtx).map
        (fun c => (c.pcb.rttest, c.pcb.sa, c.pcb.sv, c.pcb.rto)) = some (0, 28, 10, 13) :=
  ⟨by decide, by decide⟩

def sampleFlightPcb : Pcb :=
  { sampleEstPcb with sndNxt := 600, unacked := [sampleFlightSeg], sndQueuelen := 1 }

/-- The ACK of the hundred bytes, then a bare segment without the ACK flag: the second call
reports the same hundred bytes to the sent upcall again. -/
theorem sent_upcall_repeats :
    (inputRun {} (some sampleFlightPcb)
        [({}, { sampleAckIn with ackno := 600 }), ({}, { sampleAckIn with flags := {} })]).map
      (·.map fun r => r.ev.contains (.sent 100)) = some [true, true] := by
  decide

end XlioTcp
