import XlioTcp.Reassembly
import XlioTcp.Accounting

/-! Handing in-sequence data on: the reconciliation of an in-sequence segment with `ooseq` before
delivery, and the upcalls of `L3_level_tcp_input` that offer the data to the application and give
refused bytes and a FIN's byte back to the window. -/
namespace XlioTcp

/-! ## Reconciling an in-sequence segment with `ooseq` -/

/-- The loop freeing the entries an in-sequence segment covers either empties the queue, or stops
at an entry of the queue's invariant with the segment and its length as they were: a FIN it
could take is on the last entry. -/
theorem inseqDropCovered_spec (r seqno : U32) (seg : TcpSeg) (t : U16) :
    ∀ (q : List TcpSeg) (lo : Nat), 1 ≤ lo → OoseqFrom r lo q →
      (inseqDropCovered seqno seg t q).2.2 = [] ∨
        ((inseqDropCovered seqno seg t q).1 = seg ∧ (inseqDropCovered seqno seg t q).2.1 = t ∧
          ∃ lo', 1 ≤ lo' ∧ OoseqFrom r lo' (inseqDropCovered seqno seg t q).2.2)
  | [], _, _, _ => .inl rfl
  | e :: rest, lo, hlo, h => by
    have hq := h
    obtain ⟨hs, -, -, hfin, hrest⟩ := h
    unfold inseqDropCovered
    split_ifs with hcov hf
    · rw [hfin (Bool.and_eq_true_iff.mp hf).1]
      exact .inl rfl
    · exact inseqDropCovered_spec r seqno seg t rest _ (by omega) hrest
    · exact .inr ⟨rfl, rfl, lo, hlo, hq⟩

/-- The right trim gives the segment exactly `d` sequence numbers: a SYN keeps one of them. -/
theorem rightTrim_tcplen (seg : TcpSeg) (d : U32) (p : List Pbuf) (hf : seg.tcphdr.flags.fin = false) :
    ({ seg with len := if seg.tcphdr.flags.syn then d - 1 else d, p := p } : TcpSeg).tcplen = d := by
  simp only [TcpSeg.tcplen, hf, Bool.false_or]
  cases seg.tcphdr.flags.syn
  · simp
  · exact BitVec.sub_add_cancel d 1

/-- An in-sequence segment without FIN, reconciled with an `ooseq` of the invariant: when an entry
remains, the segment carries no FIN, keeps a sequence number, and ends at or before the entry's
start, exactly there when the right trim ran (its guard, on the length the loop leaves). -/
theorem tcpTrimToOoseq_meets_next (c c' : Ctx) (hok : OoseqOk c.pcb) (hseq : c.d.seqno = c.pcb.rcvNxt)
    (hfin : c.d.inseg.tcphdr.flags.fin = false) (hpos : 0 < c.d.inseg.tcplen.toNat)
    (h : tcpTrimToOoseq c = some c') (n : TcpSeg) (rest : List TcpSeg) (hn : c'.pcb.ooseq = n :: rest) :
    c'.d.inseg.tcphdr.flags.fin = false ∧ 0 < c'.d.inseg.tcplen.toNat ∧
      c'.d.tcplen.toNat ≤ seqOff c'.d.seqno n.start ∧
      (tcpSeqGt (c.d.seqno + (inseqDropCovered c.d.seqno c.d.inseg c.d.tcplen c.pcb.ooseq).2.1.setWidth 32)
          n.start = true → c'.d.tcplen.toNat = seqOff c'.d.seqno n.start) := by
  unfold tcpTrimToOoseq at h
  by_cases h0 : c.pcb.ooseq = []
  · rw [if_pos h0] at h; cases h; rw [h0] at hn; cases hn
  rw [if_neg h0, hfin, if_neg Bool.false_ne_true] at h
  have hspec := inseqDropCovered_spec c.pcb.rcvNxt c.d.seqno c.d.inseg c.d.tcplen c.pcb.ooseq 1 le_rfl hok
  rcases hres : inseqDropCovered c.d.seqno c.d.inseg c.d.tcplen c.pcb.ooseq with ⟨seg, t, _ | ⟨m, rest'⟩⟩
  · rw [hres] at h; cases h; cases hn
  rw [hres] at h hspec
  rcases hspec with hnil | ⟨rfl, rfl, lo', hlo', hs, hs31, -⟩
  · cases hnil
  rw [← hseq] at hs hs31
  -- offsets from the segment's start: its end is `tcplen` after it, `m` starts `s ≥ 1` after it
  have ht : seqOff c.d.seqno (c.d.seqno + c.d.tcplen.setWidth 32) = c.d.tcplen.toNat := by
    rw [seqOff_base_add, BitVec.toNat_setWidth, Nat.mod_eq_of_lt (by have := c.d.tcplen.isLt; omega)]
  have hgt := tcpSeqGt_iff_off (b := c.d.seqno) (x := c.d.seqno + c.d.tcplen.setWidth 32) (y := m.start)
    (by rw [ht]; have := c.d.tcplen.isLt; omega) hs31
  rw [ht] at hgt
  dsimp only at h
  split at h
  · rename_i hg
    have hs16 : seqOff c.d.seqno m.start < 2^16 := by have := hgt.mp hg; have := c.d.tcplen.isLt; omega
    have e := rightTrim_tcplen c.d.inseg (m.start - c.d.seqno)
    have e' : (m.start - c.d.seqno).toNat = seqOff c.d.seqno m.start := rfl
    obtain ⟨p, -, rfl⟩ := Option.map_eq_some'.mp h
    cases hn
    simp only [e _ hfin]
    refine ⟨hfin, by omega, ?_, fun _ => ?_⟩ <;>
      rw [BitVec.toNat_setWidth, e', Nat.mod_eq_of_lt hs16]
  · rename_i hg
    have hle := (not_congr hgt).mp hg
    cases h
    cases hn
    exact ⟨hfin, hpos, show c.d.tcplen.toNat ≤ seqOff c.d.seqno n.start by omega, fun h' => absurd h' hg⟩

/-- An ESTABLISHED connection at `rcv_nxt` 1000 with an entry for the ten bytes from 1005 on
`ooseq`, and a ten-byte in-sequence segment that overlaps it. -/
def sampleOverlapCtx : Ctx :=
  ⟨{ sampleEstPcb with ooseq := [(dataIn 1005 500 { ack := true } 10).inseg] },
    dataIn 1000 500 { ack := true } 10, []⟩

def sampleOverlapResult : Ctx := (tcpTrimToOoseq sampleOverlapCtx).getD sampleOverlapCtx

theorem tcpTrimToOoseq_meets_next_sample :
    OoseqOk sampleOverlapCtx.pcb ∧ sampleOverlapResult.d.tcplen.toNat = 5 ∧
      (sampleOverlapResult.d.inseg.tcphdr.flags.fin = false ∧ 0 < sampleOverlapResult.d.inseg.tcplen.toNat ∧
        sampleOverlapResult.d.tcplen.toNat ≤ seqOff sampleOverlapResult.d.seqno 1005 ∧
        (tcpSeqGt (sampleOverlapCtx.d.seqno + (inseqDropCovered sampleOverlapCtx.d.seqno sampleOverlapCtx.d.inseg
            sampleOverlapCtx.d.tcplen sampleOverlapCtx.pcb.ooseq).2.1.setWidth 32) 1005 = true →
          sampleOverlapResult.d.tcplen.toNat = seqOff sampleOverlapResult.d.seqno 1005)) :=
  ⟨by decide, by decide, tcpTrimToOoseq_meets_next sampleOverlapCtx sampleOverlapResult (by decide) rfl rfl
    (by decide) rfl (dataIn 1005 500 { ack := true } 10).inseg [] rfl⟩

/-! ## The recv upcall -/

theorem chainTotLen_markPush (p : List Pbuf) : chainTotLen (markPush p) = chainTotLen p := by
  cases p <;> rfl

/-- A chain the application refuses (an error other than `ERR_ABRT`) goes back to the window and
is dropped: the PCB after the upcall is the PCB before with `rcv_wnd` grown by the chain's
length, and nothing else of it changes. -/
theorem upcallRecv_refused (env : Env) (c : Ctx) (hr : env.recvErr ≠ .ok) (ha : env.recvErr ≠ .abrt) :
    (upcallRecv env c).1.pcb = { c.pcb with rcvWnd := c.pcb.rcvWnd + chainTotLen c.d.recvData } ∧
      (upcallRecv env c).2 = true := by
  unfold upcallRecv
  by_cases hd : c.d.recvData = []
  · rw [if_neg (not_not.mpr hd)]
    refine ⟨?_, rfl⟩
    show c.pcb = { c.pcb with rcvWnd := c.pcb.rcvWnd + chainTotLen c.d.recvData }
    rw [hd, chainTotLen, add_zero]
  · rw [if_pos hd]
    dsimp only
    rw [if_neg ha, if_pos hr]
    refine ⟨?_, rfl⟩
    split
    · exact congrArg (fun w => { c.pcb with rcvWnd := c.pcb.rcvWnd + w }) (chainTotLen_markPush c.d.recvData)
    · rfl

/-- An ESTABLISHED connection at `rcv_nxt` 1000 with a 100-byte window takes ten in-sequence bytes,
and the application refuses them: `rcv_nxt` acknowledges them, the window is given back as if
they had been consumed, and no queue of the PCB holds them. -/
theorem refused_data_is_acknowledged_and_dropped :
    (tcpInputDispatch {} { recvErr := .other } (some sampleEstPcb) (dataIn 1000 500 { ack := true } 10)).map
        (fun r => (r.pcb.map fun p => (p.rcvNxt, p.rcvWnd, p.ooseq.isEmpty), r.ev)) =
      some (some (1010, 100, true), [.recv (dataIn 1000 500 { ack := true } 10).inseg.p, .output]) := by
  decide

/-! ## The window given back -/

section WindowBack

/-- Past an upcall that left the PCB alive, the earlier upcalls all left it alive. -/
theorem thenUpcall_alive {f : Ctx → Ctx × Bool} {x : Ctx × Bool} {c' : Ctx}
    (h : thenUpcall f x = (c', true)) : ∃ c, x = (c, true) ∧ f c = (c', true) := by
  obtain ⟨c, _ | _⟩ := x
  · cases h
  · exact ⟨c, rfl, h⟩

theorem upcallSent_frame (env : Env) (c : Ctx) :
    (upcallSent env c).1.pcb = c.pcb ∧ (upcallSent env c).1.d = c.d := by
  unfold upcallSent; split <;> exact ⟨rfl, rfl⟩

theorem upcallRxClosed_frame (c : Ctx) : (upcallRxClosed c).1.pcb = c.pcb ∧ (upcallRxClosed c).1.d = c.d := by
  unfold upcallRxClosed; split <;> exact ⟨rfl, rfl⟩

theorem upcallRecv_d (env : Env) (c : Ctx) :
    (upcallRecv env c).1.d.recvFlags = c.d.recvFlags ∧
      chainTotLen (upcallRecv env c).1.d.recvData = chainTotLen c.d.recvData := by
  unfold upcallRecv; dsimp only
  split_ifs <;> first | exact ⟨rfl, rfl⟩ | exact ⟨rfl, chainTotLen_markPush _⟩

/-- Only a refused chain moves the PCB. -/
theorem upcallRecv_pcb (env : Env) (c : Ctx) (h : env.recvErr = .ok ∨ env.recvErr = .abrt) :
    (upcallRecv env c).1.pcb = c.pcb := by
  unfold upcallRecv; dsimp only
  split_ifs <;> first | rfl | exact absurd h (not_or.mpr ⟨‹_›, ‹_›⟩)

/-- After `ERR_ABRT` the PCB is still there only if no data was offered. -/
theorem upcallRecv_abrt_alive (env : Env) (c : Ctx) (hab : env.recvErr = .abrt)
    (ha : (upcallRecv env c).2 = true) : c.d.recvData = [] := by
  by_contra hd
  unfold upcallRecv at ha
  rw [if_pos hd] at ha
  dsimp only at ha
  rw [if_pos hab] at ha
  exact Bool.false_ne_true ha

/-- A recv upcall that leaves the PCB there gives back the bytes of a refused chain, and nothing
else. -/
theorem upcallRecv_alive_pcb (env : Env) (c : Ctx) (ha : (upcallRecv env c).2 = true) :
    (upcallRecv env c).1.pcb =
      { c.pcb with rcvWnd := c.pcb.rcvWnd + if env.recvErr = .ok then 0 else chainTotLen c.d.recvData } := by
  by_cases hok : env.recvErr = .ok
  · rw [upcallRecv_pcb env c (.inl hok), if_pos hok, add_zero]
  rw [if_neg hok]
  by_cases hab : env.recvErr = .abrt
  · rw [upcallRecv_pcb env c (.inr hab), upcallRecv_abrt_alive env c hab ha, chainTotLen, add_zero]
  · exact (upcallRecv_refused env c hok hab).1

/-- EOF gives the FIN's byte back unless the window is already whole. -/
theorem upcallClosed_rcvRight (env : Env) (c : Ctx) :
    (upcallClosed env c).1.d = c.d ∧
      (upcallClosed env c).1.pcb.rcvRight =
        c.pcb.rcvRight + if c.d.recvFlags.gotFin = true ∧ c.pcb.rcvWnd ≠ c.pcb.rcvWndMax then 1 else 0 := by
  unfold upcallClosed
  split
  · refine ⟨rfl, ?_⟩
    show c.pcb.rcvNxt + (if c.pcb.rcvWnd ≠ c.pcb.rcvWndMax then c.pcb.rcvWnd + 1 else c.pcb.rcvWnd) = _
    split_ifs <;> simp_all [Pcb.rcvRight, add_assoc]
  · exact ⟨rfl, by simp_all⟩

/-- The upcalls after `tcp_process` move the right edge of the window only by what they give
back: the bytes of a chain the application refused, and the FIN's byte when the window the EOF
upcall sees is not whole. -/
theorem tcpInputUpcalls_rcvRight (env : Env) (c : Ctx) {p : Pcb} (h : (tcpInputUpcalls env c).pcb = some p) :
    let r := tcpInputUpcalls env c
    let back : U32 := if env.recvErr = .ok then 0 else chainTotLen r.recvData
    p.rcvRight = c.pcb.rcvRight + back +
      if r.recvFlags.gotFin = true ∧ c.pcb.rcvWnd + back ≠ c.pcb.rcvWndMax then 1 else 0 := by
  unfold tcpInputUpcalls at h ⊢
  generalize h₀ : upcallSent env c = x₀ at h ⊢
  generalize h₁ : thenUpcall upcallRxClosed x₀ = x₁ at h ⊢
  generalize h₂ : thenUpcall (upcallRecv env) x₁ = x₂ at h ⊢
  generalize h₃ : thenUpcall (upcallClosed env) x₂ = x₃ at h ⊢
  obtain ⟨c₃, _ | _⟩ := x₃
  · cases h
  cases h
  obtain ⟨c₂, rfl, e₃⟩ := thenUpcall_alive h₃
  obtain ⟨c₁, rfl, e₂⟩ := thenUpcall_alive h₂
  obtain ⟨c₀, rfl, e₁⟩ := thenUpcall_alive h₁
  have f₀ := upcallSent_frame env c
  have f₁ := upcallRxClosed_frame c₀
  have r₂ := upcallRecv_alive_pcb env c₁
  have d₂ := upcallRecv_d env c₁
  have f₃ := upcallClosed_rcvRight env c₂
  rw [h₀] at f₀
  rw [e₁] at f₁
  rw [e₂] at r₂ d₂
  rw [e₃] at f₃
  dsimp only at f₀ f₁ r₂ d₂ f₃
  have key : c₃.pcb.rcvRight = c.pcb.rcvRight + (if env.recvErr = .ok then 0 else chainTotLen c₃.d.recvData) +
      if c₃.d.recvFlags.gotFin = true ∧
        c.pcb.rcvWnd + (if env.recvErr = .ok then 0 else chainTotLen c₃.d.recvData) ≠ c.pcb.rcvWndMax then 1 else 0 := by
    rw [f₃.2, r₂ rfl, f₁.1, f₀.1, f₃.1, d₂.2]
    simp only [Pcb.rcvRight, add_assoc]
  exact key

variable {cfg : Config} {env : Env}

/-- Outside SYN_SENT and TIME_WAIT, one call of `L3_level_tcp_input` that leaves the PCB either
leaves it as it was and delivers nothing (LISTEN, CLOSED), or runs `tcp_process`, which keeps the
right edge `rcv_nxt + rcv_wnd` of the receive window, and then the upcalls: the right edge of the
PCB it leaves is the old one, plus the length of the chain handed to the application if the
application refused it, plus one for a FIN exactly when the window the EOF upcall sees is not
`rcv_wnd_max`. -/
theorem tcpInputDispatch_rcvRight {pcb p' : Pcb} {d : InData} {r : InputResult}
    (hs : pcb.state ≠ .synSent) (htw : pcb.state ≠ .timeWait)
    (h : tcpInputDispatch cfg env (some pcb) d = some r) (hp : r.pcb = some p') :
    (p' = pcb ∧ r.recvData = [] ∧ r.recvFlags = {}) ∨
      ∃ c err, tcpProcess cfg env ⟨{ pcb with isInInput := true }, { d with recvData := [], recvFlags := {} }, []⟩ =
          some (c, err) ∧ c.pcb.rcvRight = pcb.rcvRight ∧
        let back : U32 := if env.recvErr = .ok then 0 else chainTotLen r.recvData
        p'.rcvRight = pcb.rcvRight + back +
          if r.recvFlags.gotFin = true ∧ c.pcb.rcvWnd + back ≠ c.pcb.rcvWndMax then 1 else 0 := by
  unfold tcpInputDispatch at h
  dsimp only at h
  split_ifs at h
  · obtain ⟨c, err, hc, rfl⟩ := tcpInputActive_alive h hp
    have e : c.pcb.rcvRight = pcb.rcvRight := tcpProcess_rcvRight hs hc
    refine .inr ⟨c, err, hc, e, ?_⟩
    rw [← e]
    exact tcpInputUpcalls_rcvRight env c hp
  all_goals cases h; cases hp; exact .inl ⟨rfl, rfl, rfl⟩

/-- An ESTABLISHED connection whose application refuses the ten in-sequence bytes it is offered. -/
def sampleRefusedResult : InputResult :=
  (tcpInputDispatch {} { recvErr := .other } (some sampleEstPcb) (dataIn 1000 500 { ack := true } 10)).getD
    ⟨none, [], {}, []⟩

theorem tcpInputDispatch_rcvRight_sample :
    sampleEstPcb.state ≠ .synSent ∧ sampleEstPcb.state ≠ .timeWait ∧
      ((sampleRefusedResult.pcb.getD sampleEstPcb = sampleEstPcb ∧ sampleRefusedResult.recvData = [] ∧
          sampleRefusedResult.recvFlags = {}) ∨
        ∃ c err, tcpProcess {} { recvErr := .other } ⟨{ sampleEstPcb with isInInput := true },
            { dataIn 1000 500 { ack := true } 10 with recvData := [], recvFlags := {} }, []⟩ = some (c, err) ∧
          c.pcb.rcvRight = sampleEstPcb.rcvRight ∧
          let back : U32 := if ErrT.other = .ok then 0 else chainTotLen sampleRefusedResult.recvData
          (sampleRefusedResult.pcb.getD sampleEstPcb).rcvRight = sampleEstPcb.rcvRight + back +
            if sampleRefusedResult.recvFlags.gotFin = true ∧ c.pcb.rcvWnd + back ≠ c.pcb.rcvWndMax then 1 else 0) :=
  ⟨by decide, by decide, @tcpInputDispatch_rcvRight {} { recvErr := .other } sampleEstPcb _
    (dataIn 1000 500 { ack := true } 10) sampleRefusedResult (by decide) (by decide) rfl rfl⟩

example : ((sampleRefusedResult.pcb.getD sampleEstPcb).rcvRight, chainTotLen sampleRefusedResult.recvData) =
    (1110, 10) := by decide

end WindowBack

end XlioTcp
