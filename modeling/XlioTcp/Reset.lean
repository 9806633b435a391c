import XlioTcp.SendSide
import XlioTcp.Handshake

/-! Resets: what `tcp_process` does with a RST it receives, and the sequence and acknowledgment
numbers of the resets the input path sends. -/
namespace XlioTcp

/-! ## Receiving a RST -/

/-- For windows below half the sequence space, `TCP_SEQ_BETWEEN(s, a, a + w)` holds when `s`
is at most `w` ahead of `a`: both edges are included. -/
theorem tcpSeqBetween_window (s a w : U32) (hw : w.toNat < 2^31) :
    tcpSeqBetween s a (a + w) = true ↔ seqOff a s ≤ w.toNat := by
  rw [tcpSeqBetween, Bool.and_eq_true, tcpSeqGeq_eq_not_lt, tcpSeqLeq_eq_not_gt, Bool.not_eq_true',
    Bool.not_eq_true', ← Bool.not_eq_true, ← Bool.not_eq_true, tcpSeqLt_iff, tcpSeqGt_iff, seqOff]
  simp only [BitVec.toNat_sub, BitVec.toNat_add]
  have := s.isLt
  have := a.isLt
  omega

theorem rstAcceptable_iff (pcb : Pcb) (d : InData) (hw : pcb.rcvWnd.toNat < 2^31) :
    rstAcceptable pcb d = true ↔
      (pcb.state = .synSent ∧ d.ackno = pcb.sndNxt) ∨
        (pcb.state ≠ .synSent ∧ seqOff pcb.rcvNxt d.seqno ≤ pcb.rcvWnd.toNat) := by
  unfold rstAcceptable
  by_cases hs : pcb.state = .synSent
  · simp [hs]
  · simp [hs, tcpSeqBetween_window _ _ _ hw]

/-- A RST reaching `tcp_process`, for a receive window below half the sequence space (lwIP's
windows are at most `2^30`): accepted in SYN_SENT when it acknowledges `snd_nxt`, elsewhere
when its sequence number lies in `[rcv_nxt, rcv_nxt + rcv_wnd]`. An accepted RST only marks
the segment `TF_RESET` and clears `TF_ACK_DELAY`; any other returns with nothing changed. -/
theorem tcpProcess_rst (cfg : Config) (env : Env) (c : Ctx) (hr : c.d.flags.rst = true)
    (hw : c.pcb.rcvWnd.toNat < 2^31) :
    tcpProcess cfg env c =
      if (c.pcb.state = .synSent ∧ c.d.ackno = c.pcb.sndNxt) ∨
          (c.pcb.state ≠ .synSent ∧ seqOff c.pcb.rcvNxt c.d.seqno ≤ c.pcb.rcvWnd.toNat) then
        some ({ c with
          d := { c.d with recvFlags := { c.d.recvFlags with reset := true } },
          pcb := { c.pcb with flags := { c.pcb.flags with ackDelay := false } } }, .rst)
      else some (c, .ok) := by
  simp only [tcpProcess, hr, if_true]
  by_cases h : rstAcceptable c.pcb c.d = true
  · rw [if_pos h, if_pos ((rstAcceptable_iff c.pcb c.d hw).mp h)]
  · rw [if_neg h, if_neg (mt (rstAcceptable_iff c.pcb c.d hw).mpr h)]

/-- A RST at sequence number 1100: `rcv_nxt + rcv_wnd` for `sampleEstPcb`, one past the last
sequence number its window admits. -/
def sampleEdgeRstIn : InData :=
  let h := { sampleFinHdr with seqno := 1100, ackno := 0, flags := { rst := true } }
  { sampleAckIn with
    tcphdr := h, seqno := 1100, ackno := 0, flags := h.flags,
    inseg := { sampleAckIn.inseg with tcphdr := h, seqno := 1100, tcpFlags := h.flags } }

/-- The RST at the right edge is accepted and the connection torn down, although the window
test of `tcp_receive` for the same sequence number, `[rcv_nxt, rcv_nxt + rcv_wnd - 1]`,
rejects it. -/
theorem rst_at_window_right_edge_accepted :
    seqOff sampleEstPcb.rcvNxt sampleEdgeRstIn.seqno = sampleEstPcb.rcvWnd.toNat ∧
      tcpSeqBetween sampleEdgeRstIn.seqno sampleEstPcb.rcvNxt (sampleEstPcb.rcvNxt + sampleEstPcb.rcvWnd - 1) = false ∧
      (tcpProcess {} {} ⟨sampleEstPcb, sampleEdgeRstIn, []⟩).map (fun r => (r.1.d.recvFlags.reset, r.2)) =
        some (true, .rst) ∧
      (tcpInputDispatch {} {} (some sampleEstPcb) sampleEdgeRstIn).map (fun r => (r.pcb.isNone, r.ev)) =
        some (true, [.errUpcall, .pcbRemove]) := by
  decide

/-! ## Sending a RST -/

/-- Whether a call is a reset. -/
def Event.isRst : Event → Bool
  | .rst .. => true
  | _ => false

/-- `c'` extends the calls of `c` by calls none of which is a reset. -/
def RstFree (c c' : Ctx) : Prop := ∃ e, c'.ev = c.ev ++ e ∧ ∀ x ∈ e, x.isRst = false

namespace RstFree
variable {c₁ c₂ c₃ : Ctx}

theorem of_ev (h : c₂.ev = c₁.ev) : RstFree c₁ c₂ := ⟨[], by simp [h], by simp⟩

theorem trans (h₁ : RstFree c₁ c₂) (h₂ : RstFree c₂ c₃) : RstFree c₁ c₃ := by
  obtain ⟨e₁, h₁, f₁⟩ := h₁
  obtain ⟨e₂, h₂, f₂⟩ := h₂
  exact ⟨e₁ ++ e₂, by rw [h₂, h₁, List.append_assoc],
    fun x hx => (List.mem_append.mp hx).elim (f₁ x) (f₂ x)⟩

theorem emit (e : Event) (he : e.isRst = false) : RstFree c₁ (c₁.emit e) :=
  ⟨[e], rfl, by simpa using he⟩

theorem of_sndKeep (h : SndKeep c₁ c₂) : RstFree c₁ c₂ := by
  obtain ⟨-, n, hn⟩ := h
  exact ⟨_, hn, fun x hx => by rw [List.eq_of_mem_replicate hx]; rfl⟩

end RstFree

/-- Every reset among `evs` answers the segment `d` with sequence number `s` and
acknowledgment `seqno + tcplen`, from the port it was sent to back to the port it came from.
RFC 793 asks for `s = ackno`. -/
def RstsAnswer (d : InData) (s : U32) (evs : List Event) : Prop :=
  ∀ e ∈ evs, e.isRst = true → e = .rst s (d.seqno + d.tcplen.setWidth 32) d.tcphdr.dest d.tcphdr.src

/-- `c'` extends the calls of `c`, and every reset among the new calls answers `d` with
sequence number `s`. -/
def RstsAfter (d : InData) (s : U32) (c c' : Ctx) : Prop := ∃ e, c'.ev = c.ev ++ e ∧ RstsAnswer d s e

section Answers
variable {d : InData} {s : U32}

theorem RstsAnswer.append {a b : List Event} (ha : RstsAnswer d s a) (hb : RstsAnswer d s b) :
    RstsAnswer d s (a ++ b) :=
  fun e he => (List.mem_append.mp he).elim (ha e) (hb e)

theorem RstsAnswer.of_rstFree {e : List Event} (h : ∀ x ∈ e, x.isRst = false) : RstsAnswer d s e :=
  fun x hx hr => by simp [h x hx] at hr

theorem RstFree.rstsAfter {c c' : Ctx} (h : RstFree c c') : RstsAfter d s c c' :=
  let ⟨e, he, hf⟩ := h
  ⟨e, he, .of_rstFree hf⟩

theorem RstsAfter.trans {c₁ c₂ c₃ : Ctx} (h₁ : RstsAfter d s c₁ c₂) (h₂ : RstsAfter d s c₂ c₃) :
    RstsAfter d s c₁ c₃ := by
  obtain ⟨e₁, h₁, f₁⟩ := h₁
  obtain ⟨e₂, h₂, f₂⟩ := h₂
  exact ⟨e₁ ++ e₂, by rw [h₂, h₁, List.append_assoc], f₁.append f₂⟩

theorem RstsAfter.rstReply (c : Ctx) : RstsAfter c.d c.d.ackno c (c.rstReply c.d.ackno) :=
  ⟨_, rfl, fun _ he _ => List.mem_singleton.mp he⟩

theorem RstsAfter.of_ev {c c' : Ctx} (h : c'.ev = c.ev) : RstsAfter d s c c' := (RstFree.of_ev h).rstsAfter

end Answers

section ReceivePath
variable {cfg : Config} {env : Env} {c c' : Ctx}

theorem tcpDupAck_rstFree (e : U32) : RstFree c (tcpDupAck cfg c e) := by
  unfold tcpDupAck; dsimp only
  split_ifs <;> first | exact .of_ev rfl | exact .emit _ rfl

theorem tcpAckClassify_rstFree {e : U32} {b : Bool} (h : tcpAckClassify cfg c e b = some c') :
    RstFree c c' := by
  unfold tcpAckClassify at h
  split_ifs at h
  · cases h; exact tcpDupAck_rstFree e
  · exact .of_ev (tcpNewAck_dupacks h).2
  · cases h; exact .emit _ rfl

theorem tcpReceiveAck_rstFree (h : tcpReceiveAck cfg env c = some c') : RstFree c c' := by
  simp only [tcpReceiveAck, Option.bind_eq_bind, Option.bind_eq_some, Option.some.injEq] at h
  obtain ⟨c₁, h₁, c₂, h₂, rfl⟩ := h
  exact (tcpAckClassify_rstFree h₁).trans
    ((RstFree.of_ev (tcpAckUnsent_keeps h₂).2).trans (.of_ev (tcpRttSample_keeps env c₂).2))

/-- `tcp_receive` sends no reset. -/
theorem tcpReceive_rstFree (h : tcpReceive cfg env c = some c') : RstFree c c' := by
  obtain ⟨c₁, h₁, hk⟩ := tcpReceive_ackHalf h
  refine RstFree.trans ?_ (.of_sndKeep hk)
  split at h₁
  · exact tcpReceiveAck_rstFree h₁
  · cases h₁; exact .of_ev rfl

end ReceivePath

section ProcessPath
variable {cfg : Config} {env : Env} {c c' : Ctx} {err : ErrT}

theorem tcpSynSentEstablish_ev : (tcpSynSentEstablish cfg env c).1.ev = c.ev ++ [.connected] := by
  simp only [tcpSynSentEstablish]; split <;> rfl

theorem tcpSynRcvdAccepted_rstFree (h : tcpSynRcvdAccepted cfg env c = some c') : RstFree c c' := by
  obtain ⟨c₁, h₁, rfl⟩ := Option.map_eq_some'.mp h
  refine (tcpReceive_rstFree h₁).trans (.of_ev ?_)
  dsimp only; split_ifs <;> rfl

theorem tcpProcessSynced_rstFree (h : tcpProcessSynced cfg env c = some c') : RstFree c c' := by
  obtain ⟨c₁, h₁, rfl⟩ := Option.map_eq_some'.mp h
  exact (tcpReceive_rstFree h₁).trans (.of_ev (tcpSyncedTransition_ev _ _))

theorem tcpProcessSynSent_rsts (h : tcpProcessSynSent cfg env c = some (c', err)) :
    RstsAfter c.d c.d.ackno c c' := by
  unfold tcpProcessSynSent at h
  split_ifs at h
  · obtain ⟨rseg, -, h⟩ := Option.map_eq_some'.mp h
    split_ifs at h
    · rw [show c' = (tcpSynSentEstablish cfg env c).1 by rw [h]]
      exact RstFree.rstsAfter ⟨[.connected], tcpSynSentEstablish_ev, by decide⟩
    · cases h; exact .rstReply c
  · cases h; exact .rstReply c
  · cases h; exact .of_ev rfl

theorem tcpProcessSynRcvd_rsts (h : tcpProcessSynRcvd cfg env c = some (c', err)) :
    RstsAfter c.d c.d.ackno c c' := by
  unfold tcpProcessSynRcvd at h
  dsimp only at h
  split_ifs at h
  · cases h; exact RstFree.rstsAfter ((RstFree.of_ev rfl).trans (.emit .accept rfl))
  · cases h; exact RstFree.rstsAfter (((RstFree.of_ev rfl).trans (.emit .accept rfl)).trans (.emit .abort rfl))
  · obtain ⟨c₁, h₁, h⟩ := Option.map_eq_some'.mp h
    cases h
    exact RstFree.rstsAfter (((RstFree.of_ev rfl : RstFree c (c.setState .established)).trans
      (.emit .accept rfl)).trans (tcpSynRcvdAccepted_rstFree h₁))
  · cases h; exact .rstReply c
  · cases h; exact RstFree.rstsAfter (.emit .rexmit rfl)
  · cases h; exact .of_ev rfl

/-- The resets of the state switch answer the segment with its `ackno`. -/
theorem tcpProcessState_rsts (h : tcpProcessState cfg env c = some (c', err)) :
    RstsAfter c.d c.d.ackno c c' := by
  unfold tcpProcessState at h
  split at h
  · exact tcpProcessSynSent_rsts h
  · exact tcpProcessSynRcvd_rsts h
  all_goals first
    | (cases h; exact .of_ev rfl)
    | (obtain ⟨c₁, h₁, h⟩ := Option.map_eq_some'.mp h
       cases h
       exact (tcpProcessSynced_rstFree h₁).rstsAfter)

/-- The resets `tcp_process` sends answer the segment with its `ackno`. -/
theorem tcpProcess_rsts (h : tcpProcess cfg env c = some (c', err)) : RstsAfter c.d c.d.ackno c c' := by
  unfold tcpProcess at h
  dsimp only at h
  split_ifs at h
  · cases h; exact .of_ev rfl
  · cases h; exact .of_ev rfl
  · cases h; exact .of_ev rfl
  · have h₁ := tcpProcessState_rsts h
    rw [(tcpProcessPrepare_frame cfg env c).1] at h₁
    exact h₁

end ProcessPath

section Upcalls
variable (env : Env)

theorem upcallSent_rstFree (c : Ctx) : RstFree c (upcallSent env c).1 := by
  unfold upcallSent; split
  · exact .emit _ rfl
  · exact .of_ev rfl

theorem upcallRxClosed_rstFree (c : Ctx) : RstFree c (upcallRxClosed c).1 := by
  unfold upcallRxClosed; split
  · exact .emit _ rfl
  · exact .of_ev rfl

theorem upcallRecv_rstFree (c : Ctx) : RstFree c (upcallRecv env c).1 := by
  unfold upcallRecv; dsimp only
  split_ifs <;> first | exact .of_ev rfl | exact ⟨[_], rfl, by simp [Event.isRst]⟩

theorem upcallClosed_rstFree (c : Ctx) : RstFree c (upcallClosed env c).1 := by
  unfold upcallClosed; dsimp only
  split_ifs <;> first | exact .of_ev rfl | exact ⟨[_], rfl, by simp [Event.isRst]⟩

theorem thenUpcall_rstFree {f : Ctx → Ctx × Bool} (hf : ∀ c, RstFree c (f c).1) :
    ∀ x : Ctx × Bool, RstFree x.1 (thenUpcall f x).1
  | (c, true) => hf c
  | (_, false) => .of_ev rfl

theorem tcpInputUpcalls_rstFree (c : Ctx) :
    ∃ e, (tcpInputUpcalls env c).ev = c.ev ++ e ∧ ∀ x ∈ e, x.isRst = false := by
  unfold tcpInputUpcalls
  have h := (upcallSent_rstFree env c).trans <| (thenUpcall_rstFree upcallRxClosed_rstFree _).trans <|
    (thenUpcall_rstFree (upcallRecv_rstFree env) _).trans (thenUpcall_rstFree (upcallClosed_rstFree env) _)
  generalize thenUpcall _ _ = x at h ⊢
  obtain ⟨c', _ | _⟩ := x
  · exact h
  · exact h.trans (.emit .output rfl)

end Upcalls

section Dispatch
variable {cfg : Config} {env : Env} {pcb : Pcb} {d : InData} {r : InputResult}

theorem tcpInputActive_rsts (h : tcpInputActive cfg env pcb d = some r) : RstsAnswer d d.ackno r.ev := by
  obtain ⟨⟨c, err⟩, hp, rfl⟩ := Option.map_eq_some'.mp h
  obtain ⟨e, he, ha⟩ := tcpProcess_rsts hp
  have he : c.ev = e := by simpa using he
  dsimp only
  split_ifs
  · rw [he]; exact ha
  · rw [he]; exact ha.append (.of_rstFree (by decide))
  · rw [he]; exact ha.append (.of_rstFree (by decide))
  · obtain ⟨e', he', hf⟩ := tcpInputUpcalls_rstFree env c
    rw [he', he]; exact ha.append (.of_rstFree hf)

theorem tcpPcbReuse_rstFree (c : Ctx) : RstFree c (tcpPcbReuse cfg env c).1 := by
  unfold tcpPcbReuse; dsimp only
  split_ifs
  · exact (RstFree.of_ev rfl).trans (.emit .synTwHandled rfl)
  · exact ((RstFree.of_ev rfl).trans (.emit .synTwHandled rfl)).trans (.emit .abandon rfl)
  · exact (((RstFree.of_ev rfl).trans (.emit .synTwHandled rfl)).trans (.emit .enqueueSynAck rfl)).trans
      (.emit .output rfl)

theorem tcpTimewaitInput_rsts {c c' : Ctx} {err : ErrT} (h : tcpTimewaitInput cfg env c = some (c', err)) :
    RstsAfter c.d c.d.ackno c c' := by
  unfold tcpTimewaitInput at h
  dsimp only at h
  split_ifs at h
  · cases h; exact .of_ev rfl
  · obtain ⟨ts, -, h⟩ := Option.map_eq_some'.mp h
    split_ifs at h
    · rw [show c' = (tcpPcbReuse cfg env c).1 by rw [h]]
      exact (tcpPcbReuse_rstFree c).rstsAfter
    · cases h; exact .of_ev rfl
  all_goals cases h
  all_goals first
    | exact .of_ev rfl
    | exact .rstReply _
    | exact (RstsAfter.of_ev rfl).trans (.rstReply _)
    | exact RstFree.rstsAfter (.emit .output rfl)

variable (cfg env) in
theorem tcpListenInput_rsts (pcb : Pcb) (d : InData) :
    RstsAnswer d (d.ackno + 1) (tcpListenInput cfg env pcb d).2 := by
  unfold tcpListenInput
  split_ifs <;> (try split) <;>
    first | exact fun _ he _ => List.mem_singleton.mp he | exact .of_rstFree (by dsimp only; decide)

/-- Every reset `L3_level_tcp_input` sends answers the parsed segment with acknowledgment
`seqno + tcplen`, back to the port it came from, and with sequence number `ackno`; except the
answer to an ACK at a listening PCB, whose sequence number is `ackno + 1`. -/
theorem tcpInputDispatch_rsts {pcb : Option Pcb} (h : tcpInputDispatch cfg env pcb d = some r) :
    RstsAnswer d (if pcb.map Pcb.state = some .listen then d.ackno + 1 else d.ackno) r.ev := by
  cases pcb with
  | none =>
    cases h
    rw [if_neg (by simp)]
    dsimp only
    split
    · exact .of_rstFree (by simp)
    · exact fun _ he _ => List.mem_singleton.mp he
  | some p =>
    simp only [tcpInputDispatch] at h
    by_cases hl : p.state = .listen
    · rw [if_pos (by simp [hl])]
      rw [if_neg (by simp [TcpState.isActive, hl]), if_pos hl] at h
      cases h; exact tcpListenInput_rsts cfg env p d
    · rw [if_neg (by simp [hl])]
      split_ifs at h
      · exact tcpInputActive_rsts h
      · obtain ⟨⟨c, err⟩, ht, rfl⟩ := Option.map_eq_some'.mp h
        obtain ⟨e, he, ha⟩ := tcpTimewaitInput_rsts ht
        have he : c.ev = e := by simpa using he
        rw [he]; exact ha
      · cases h; exact .of_rstFree (by simp)

end Dispatch

/-- An ACK reaching a listening PCB is answered with sequence number `ackno + 1`; without a PCB
the same segment is answered with `ackno`. -/
theorem listen_rst_seqno_off_by_one :
    sampleAckIn.ackno = 500 ∧ sampleAckIn.seqno + sampleAckIn.tcplen.setWidth 32 = 1000 ∧
      (tcpInputDispatch {} {} (some sampleListenPcb) sampleAckIn).map (·.ev) = some [.rst 501 1000 4000 80] ∧
      (tcpInputDispatch {} {} none sampleAckIn).map (·.ev) = some [.rst 500 1000 4000 80] := by
  decide

end XlioTcp
