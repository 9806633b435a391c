import XlioTcp.StateMachine

/-! Opening a connection. Active open: in SYN_SENT, `tcp_process` checks a SYN|ACK against
`pcb->unacked->seqno + 1` without looking whether `unacked` holds anything, so a SYN|ACK that
arrives while our SYN is still on `unsent` dereferences an empty queue. Passive open and
TIME_WAIT reuse: what `tcp_listen_input` and `tcp_pcb_reuse` leave behind when one of their
collaborators fails. -/
namespace XlioTcp

section ActiveOpen
variable {cfg : Config} {env : Env} {c : Ctx}

variable (cfg env) in
theorem tcpProcessState_synSent (hs : c.pcb.state = .synSent) :
    tcpProcessState cfg env c = tcpProcessSynSent cfg env c := by
  unfold tcpProcessState; rw [hs]

/-- In SYN_SENT, `tcp_process` crashes exactly on a SYN|ACK without RST that finds `unacked`
empty; every other segment returns. -/
theorem tcpProcess_synSent_none_iff (hs : c.pcb.state = .synSent) :
    tcpProcess cfg env c = none ↔
      c.d.flags.rst = false ∧ c.d.flags.ack = true ∧ c.d.flags.syn = true ∧ c.pcb.unacked = [] := by
  obtain ⟨hd, hst, hu, -, -⟩ := tcpProcessPrepare_frame cfg env c
  have e := tcpProcessState_synSent cfg env (hst.trans hs)
  simp only [tcpProcess, e, tcpProcessSynSent, hd, hu, hs]
  cases c.d.flags.rst
  · cases c.d.flags.ack <;> cases c.d.flags.syn <;> cases c.pcb.unacked <;> simp
  · simp only [if_true, Bool.false_eq_true, false_and, iff_false]
    split <;> simp

end ActiveOpen

/-- Our SYN, sequence number 499, queued on `unsent` and not sent yet. -/
def sampleQueuedSyn : TcpSeg :=
  let h : TcpHdr :=
    { src := 4000, dest := 80, seqno := 499, ackno := 0, hdrlen := 5, flags := { syn := true }, wnd := 1000 }
  ⟨[⟨[], 0, 0, false⟩], h, 499, 0, false, h.flags⟩

/-- An active open whose SYN is still on `unsent`: `unacked` is empty. -/
def sampleSynQueuedPcb : Pcb :=
  { sampleEstPcb with state := .synSent, sndNxt := 499, lastack := 498, unsent := [sampleQueuedSyn] }

/-- The peer's SYN|ACK: its initial sequence number 999, acknowledging our SYN. -/
def sampleSynAckIn : InData :=
  let h := { sampleFinHdr with seqno := 999, flags := { syn := true, ack := true } }
  { sampleAckIn with
    tcphdr := h, seqno := 999, tcplen := 1, flags := h.flags,
    inseg := { sampleAckIn.inseg with tcphdr := h, seqno := 999, tcpFlags := h.flags } }

theorem synAck_before_syn_sent_crashes :
    sampleSynQueuedPcb.unacked = [] ∧ sampleSynQueuedPcb.unsent.map (·.seqno) = [499] ∧
      tcpInputDispatch {} {} (some sampleSynQueuedPcb) sampleSynAckIn = none :=
  ⟨rfl, rfl, rfl⟩

section PassiveOpen
variable (cfg : Config) (env : Env)

/-- The accepted-PCB upcall of a passive open fires exactly when a PCB was cloned for a bare
SYN and its registration returned `ERR_OK`, whether or not the SYN|ACK could be enqueued. -/
theorem tcpListenInput_acceptedPcb (pcb : Pcb) (d : InData) :
    Event.acceptedPcb ∈ (tcpListenInput cfg env pcb d).2 ↔
      d.flags.rst = false ∧ d.flags.fin = false ∧ d.flags.ack = false ∧ d.flags.syn = true ∧
        env.clone.isSome ∧ env.synReceivedErr = .ok := by
  unfold tcpListenInput
  cases env.clone with
  | none => cases d.flags.rst <;> cases d.flags.fin <;> cases d.flags.ack <;> cases d.flags.syn <;> simp
  | some npcb =>
    cases d.flags.rst <;> cases d.flags.fin <;> cases d.flags.ack <;> cases d.flags.syn <;> simp
    split_ifs <;> simp_all

/-- A passive open whose SYN|ACK cannot be enqueued abandons the new PCB, then hands it to the
accepted-PCB upcall all the same. -/
theorem tcpListenInput_abandon (pcb : Pcb) (d : InData) (h : Event.abandon ∈ (tcpListenInput cfg env pcb d).2) :
    (tcpListenInput cfg env pcb d).2 = [.synReceived, .abandon, .acceptedPcb] := by
  revert h
  unfold tcpListenInput
  cases env.clone with
  | none => cases d.flags.rst <;> cases d.flags.fin <;> cases d.flags.ack <;> cases d.flags.syn <;> simp
  | some npcb =>
    cases d.flags.rst <;> cases d.flags.fin <;> cases d.flags.ack <;> cases d.flags.syn <;> simp
    split_ifs <;> simp

theorem synWindows_rcvNxt (d : InData) (pcb : Pcb) : (synWindows cfg d pcb).rcvNxt = pcb.rcvNxt := by
  have h := congrArg Pcb.rcvNxt (tcpParseopt_frame cfg d pcb)
  exact h

/-- `tcp_pcb_reuse` recycles the PCB into SYN_RCVD before it calls anything: whatever the reuse
callback and the enqueue return, the PCB it leaves is in SYN_RCVD for the new SYN. -/
theorem tcpPcbReuse_synRcvd (c : Ctx) :
    (tcpPcbReuse cfg env c).1.pcb.state = .synRcvd ∧ (tcpPcbReuse cfg env c).1.pcb.rcvNxt = c.d.seqno + 1 := by
  unfold tcpPcbReuse
  dsimp only
  split_ifs <;> exact ⟨synWindows_state _ _, synWindows_rcvNxt cfg _ _⟩

end PassiveOpen

/-- A listening PCB, and the PCB its clone callback returns. -/
def sampleListenPcb : Pcb := { sampleEstPcb with state := .listen }
def sampleClonePcb : Pcb := { sampleEstPcb with state := .closed }

/-- A TIME_WAIT connection whose last `rcv_nxt` is 1000, with a reuse callback. -/
def sampleTwPcb : Pcb := { sampleEstPcb with state := .timeWait, synTwHandledCb := true }

/-- A new connection's SYN at sequence number 2000, without options. -/
def sampleSynIn : InData :=
  let h := { sampleFinHdr with seqno := 2000, ackno := 0, flags := { syn := true } }
  { sampleAckIn with
    tcphdr := h, seqno := 2000, ackno := 0, tcplen := 1, flags := h.flags,
    inseg := { sampleAckIn.inseg with tcphdr := h, seqno := 2000, tcpFlags := h.flags } }

/-- A passive open whose enqueue fails abandons the clone and then fires the accepted-PCB upcall;
a TIME_WAIT reuse whose callback refuses leaves the PCB recycled in SYN_RCVD. -/
theorem passive_open_failures_not_rolled_back :
    (tcpInputDispatch {} { clone := some sampleClonePcb, enqueueErr := .other } (some sampleListenPcb)
        sampleSynIn).map (·.ev) = some [.synReceived, .abandon, .acceptedPcb] ∧
      (tcpInputDispatch {} { synTwHandledErr := .other } (some sampleTwPcb) sampleSynIn).map
        (fun r => (r.pcb.map (·.state), r.ev)) = some (some .synRcvd, [.synTwHandled]) := by
  decide

end XlioTcp
