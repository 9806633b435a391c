import XlioTcp.Frame

/-! The connection state machine of the input path. `tcp_receive` changes the state only on a
FIN it delivers; `tcp_process`, `tcp_timewait_input` and the whole of `L3_level_tcp_input`
move a connection only along the edges of `LegalEdge`, each under its own condition. -/
namespace XlioTcp

/-- What `tcp_receive` may do to the state: nothing, or ESTABLISHED to CLOSE_WAIT in a call
that raises `TF_GOT_FIN`. It keeps the segment's flags and never clears `TF_GOT_FIN`. -/
def RcvStateStep (c c' : Ctx) : Prop :=
  c'.d.flags = c.d.flags ∧ (c.d.recvFlags.gotFin = true → c'.d.recvFlags.gotFin = true) ∧
    (c'.pcb.state = c.pcb.state ∨
      (c.pcb.state = .established ∧ c'.pcb.state = .closeWait ∧ c'.d.recvFlags.gotFin = true))

namespace RcvStateStep
variable {c₁ c₂ c₃ : Ctx}

theorem of_eq (hs : c₂.pcb.state = c₁.pcb.state) (hf : c₂.d.flags = c₁.d.flags)
    (hr : c₂.d.recvFlags = c₁.d.recvFlags) : RcvStateStep c₁ c₂ :=
  ⟨hf, fun h => hr ▸ h, .inl hs⟩

theorem refl (c : Ctx) : RcvStateStep c c := of_eq rfl rfl rfl

theorem trans (h₁ : RcvStateStep c₁ c₂) (h₂ : RcvStateStep c₂ c₃) : RcvStateStep c₁ c₃ := by
  obtain ⟨hf₁, hm₁, hs₁⟩ := h₁
  obtain ⟨hf₂, hm₂, hs₂⟩ := h₂
  refine ⟨hf₂.trans hf₁, hm₂ ∘ hm₁, ?_⟩
  rcases hs₁ with h₁ | ⟨h₁, h₁', hg⟩ <;> rcases hs₂ with h₂ | ⟨h₂, h₂', hg₂⟩
  · exact .inl (h₂.trans h₁)
  · exact .inr ⟨h₁ ▸ h₂, h₂', hg₂⟩
  · exact .inr ⟨h₁, h₂.trans h₁', hm₂ hg⟩
  · simp_all

end RcvStateStep

theorem RcvFrame.rcvStateStep {c c' : Ctx} (h : RcvFrame c c') : RcvStateStep c c' :=
  .of_eq (congrArg RcvSide.state h.2) (by rw [h.1]) (by rw [h.1])

section DataPath
variable {cfg : Config} {env : Env} {c c' : Ctx}

theorem ackNow_step : RcvStateStep c c.ackNow := .refl c
theorem ack_step : RcvStateStep c c.ack := by
  unfold Ctx.ack; split <;> exact .of_eq rfl rfl rfl
theorem emit_step (e : Event) : RcvStateStep c (c.emit e) := .refl c

theorem tcpTrimLeftEdge_step (h : tcpTrimLeftEdge c = some c') : RcvStateStep c c' := by
  simp only [tcpTrimLeftEdge, Option.map_eq_map] at h
  split_ifs at h <;> first
    | (cases h; exact .of_eq rfl rfl rfl)
    | (obtain ⟨_, -, rfl⟩ := Option.map_eq_some'.mp h; exact .of_eq rfl rfl rfl)

theorem tcpTrimToWindow_step (h : tcpTrimToWindow c = some c') : RcvStateStep c c' := by
  simp only [tcpTrimToWindow, Option.map_eq_map] at h
  split_ifs at h <;> first
    | (cases h; exact .of_eq rfl rfl rfl)
    | (obtain ⟨_, -, rfl⟩ := Option.map_eq_some'.mp h; exact .of_eq rfl rfl rfl)

theorem tcpTrimToOoseq_step (h : tcpTrimToOoseq c = some c') : RcvStateStep c c' := by
  simp only [tcpTrimToOoseq, Option.map_eq_map] at h
  split_ifs at h
  · cases h; exact .of_eq rfl rfl rfl
  · cases h; exact .of_eq rfl rfl rfl
  · split at h
    · split_ifs at h <;> first
        | (cases h; exact .of_eq rfl rfl rfl)
        | (obtain ⟨_, -, rfl⟩ := Option.map_eq_some'.mp h; exact .of_eq rfl rfl rfl)
    · cases h; exact .of_eq rfl rfl rfl

theorem drainStep_step (s : TcpSeg) (c : Ctx) : RcvStateStep c (drainStep s c) := by
  refine ⟨rfl, fun h => by simp only [drainStep]; split <;> simp_all, ?_⟩
  simp only [drainStep]
  by_cases hfin : s.tcphdr.flags.fin = true <;> by_cases hst : c.pcb.state = .established <;>
    simp [hfin, hst]

theorem tcpDrainOoseq_step (q : List TcpSeg) (c : Ctx) : RcvStateStep c (tcpDrainOoseq q c) := by
  induction q generalizing c with
  | nil => exact .of_eq rfl rfl rfl
  | cons s r ih =>
    unfold tcpDrainOoseq
    split
    · exact (drainStep_step s c).trans (ih _)
    · exact .of_eq rfl rfl rfl
theorem tcpAcceptInSeq_step : RcvStateStep c (tcpAcceptInSeq c) :=
  ⟨rfl, fun h => by simp only [tcpAcceptInSeq]; split <;> simp_all, .inl rfl⟩

theorem tcpAckDelivered_step : RcvStateStep c (tcpAckDelivered cfg c) := by
  unfold tcpAckDelivered; split
  · exact ackNow_step
  · exact ack_step

theorem tcpReceiveInSeq_step (h : tcpReceiveInSeq cfg c = some c') : RcvStateStep c c' := by
  simp only [tcpReceiveInSeq, Option.bind_eq_bind, Option.bind_eq_some] at h
  obtain ⟨c₁, h₁, c₂, h₂, h₃⟩ := h
  cases h₃
  exact ((tcpTrimToWindow_step h₁).trans (tcpTrimToOoseq_step h₂)).trans
    (tcpAcceptInSeq_step.trans ((tcpDrainOoseq_step _ _).trans tcpAckDelivered_step))

theorem tcpReceiveOoseq_step (h : tcpReceiveOoseq env c = some c') : RcvStateStep c c' := by
  simp only [tcpReceiveOoseq, Option.map_eq_map] at h
  split at h
  · cases h; exact .of_eq rfl rfl rfl
  · obtain ⟨_, -, rfl⟩ := Option.map_eq_some'.mp h; exact .of_eq rfl rfl rfl

theorem tcpReceiveData_step (h : tcpReceiveData cfg env c = some c') : RcvStateStep c c' := by
  simp only [tcpReceiveData, Option.bind_eq_bind, Option.bind_eq_some] at h
  obtain ⟨c₁, h₁, h₂⟩ := h
  refine (tcpTrimLeftEdge_step h₁).trans ?_
  split_ifs at h₂
  · exact tcpReceiveInSeq_step h₂
  · exact tcpReceiveOoseq_step h₂
  · cases h₂; exact emit_step _

/-- `tcp_receive` changes the state only from ESTABLISHED to CLOSE_WAIT, and only when it
raises `TF_GOT_FIN`. -/
theorem tcpReceive_step (h : tcpReceive cfg env c = some c') : RcvStateStep c c' := by
  unfold tcpReceive at h
  obtain ⟨c₁, h₁, h₂⟩ := Option.bind_eq_some.mp h
  have hack : RcvStateStep c c₁ := by
    split at h₁
    · exact (tcpReceiveAck_frame h₁).rcvStateStep
    · cases h₁; exact .refl c
  refine hack.trans ?_
  split_ifs at h₂
  · exact tcpReceiveData_step h₂
  · cases h₂; exact .refl _
  · cases h₂; exact ackNow_step

end DataPath

/-- The state changes one incoming segment `d` may cause, each with the condition on the
segment, or on the call's outcome, that licenses it (`gotFin`: the call raised `TF_GOT_FIN`,
the peer's FIN came in sequence). -/
inductive LegalEdge (pcb : Pcb) (d : InData) (gotFin : Bool) : TcpState → TcpState → Prop
  | stay (s : TcpState) : LegalEdge pcb d gotFin s s
  /-- a SYN|ACK acknowledging our SYN, the head of `unacked` -/
  | synSentEstablished (rseg : TcpSeg) : d.flags.syn = true → d.flags.ack = true →
      pcb.unacked.head? = some rseg → d.ackno = rseg.seqno + 1 →
      LegalEdge pcb d gotFin .synSent .established
  /-- an ACK with `lastack < ackno <= snd_nxt` -/
  | synRcvdEstablished : d.flags.ack = true → tcpSeqLt pcb.lastack d.ackno = true →
      tcpSeqLeq d.ackno pcb.sndNxt = true → LegalEdge pcb d gotFin .synRcvd .established
  | closeWait (s : TcpState) : (s = .established ∨ s = .synRcvd) → gotFin = true →
      LegalEdge pcb d gotFin s .closeWait
  | finWait1Closing : gotFin = true → LegalEdge pcb d gotFin .finWait1 .closing
  | finWait1TimeWait : gotFin = true → LegalEdge pcb d gotFin .finWait1 .timeWait
  | finWait2TimeWait : gotFin = true → LegalEdge pcb d gotFin .finWait2 .timeWait
  | finWait1FinWait2 : d.flags.ack = true → LegalEdge pcb d gotFin .finWait1 .finWait2
  | closingTimeWait : d.flags.ack = true → LegalEdge pcb d gotFin .closing .timeWait
  /-- `tcp_pcb_reuse`, on a SYN without ACK -/
  | reuse : d.flags.syn = true → d.flags.ack = false → LegalEdge pcb d gotFin .timeWait .synRcvd

/-- An edge depends on the PCB only through `unacked`, `lastack` and `snd_nxt`, and on the
segment only through its flags and `ackno`. -/
theorem LegalEdge.congr {p p' : Pcb} {d d' : InData} {g : Bool} {s s' : TcpState}
    (h : LegalEdge p d g s s') (hu : p'.unacked = p.unacked) (hl : p'.lastack = p.lastack)
    (hn : p'.sndNxt = p.sndNxt) (hf : d'.flags = d.flags) (ha : d'.ackno = d.ackno) :
    LegalEdge p' d' g s s' := by
  cases h with
  | stay => exact .stay _
  | synSentEstablished rseg h1 h2 h3 h4 =>
    exact .synSentEstablished rseg (hf ▸ h1) (hf ▸ h2) (hu ▸ h3) (ha ▸ h4)
  | synRcvdEstablished h1 h2 h3 => exact .synRcvdEstablished (hf ▸ h1) (hl ▸ ha ▸ h2) (hn ▸ ha ▸ h3)
  | closeWait s h1 h2 => exact .closeWait s h1 h2
  | finWait1Closing h1 => exact .finWait1Closing h1
  | finWait1TimeWait h1 => exact .finWait1TimeWait h1
  | finWait2TimeWait h1 => exact .finWait2TimeWait h1
  | finWait1FinWait2 h1 => exact .finWait1FinWait2 (hf ▸ h1)
  | closingTimeWait h1 => exact .closingTimeWait (hf ▸ h1)
  | reuse h1 h2 => exact .reuse (hf ▸ h1) (hf ▸ h2)

section Process
variable {cfg : Config} {env : Env} {c c' : Ctx} {err : ErrT}

theorem tcpSynSentEstablish_state : (tcpSynSentEstablish cfg env c).1.pcb.state = .established := by
  unfold tcpSynSentEstablish
  dsimp only
  split_ifs <;> rfl

theorem tcpProcessSynSent_edge (hs : c.pcb.state = .synSent)
    (h : tcpProcessSynSent cfg env c = some (c', err)) :
    LegalEdge c.pcb c.d c'.d.recvFlags.gotFin c.pcb.state c'.pcb.state := by
  unfold tcpProcessSynSent at h
  split_ifs at h with h1 h2
  · obtain ⟨rseg, hr, h⟩ := Option.map_eq_some'.mp h
    split_ifs at h with h3
    · rw [hs, ← congrArg (·.1.pcb.state) h, tcpSynSentEstablish_state]
      simp only [Bool.and_eq_true] at h1
      exact .synSentEstablished rseg h1.2 h1.1 hr h3
    · cases h; exact .stay _
  · cases h; exact .stay _
  · cases h; exact .stay _

private theorem between_succ {a b c : U32} (h : tcpSeqBetween a (b + 1) c = true) :
    tcpSeqLt b a = true ∧ tcpSeqLeq a c = true := by
  simpa only [tcpSeqBetween, Bool.and_eq_true, tcpSeqGeq_add_one] using h

theorem tcpSynRcvdAccepted_state (h : tcpSynRcvdAccepted cfg env c = some c') :
    ∃ c₁, RcvStateStep c c₁ ∧ c'.d = c₁.d ∧
      c'.pcb.state = if c₁.d.recvFlags.gotFin then .closeWait else c₁.pcb.state := by
  obtain ⟨c₁, h₁, rfl⟩ := Option.map_eq_some'.mp h
  refine ⟨c₁, tcpReceive_step h₁, ?_, ?_⟩ <;>
    simp only [Ctx.gotFin, Ctx.setState, Ctx.ackNow, ccApply] <;> split <;> rfl

theorem tcpProcessSynRcvd_edge (hs : c.pcb.state = .synRcvd)
    (h : tcpProcessSynRcvd cfg env c = some (c', err)) :
    LegalEdge c.pcb c.d c'.d.recvFlags.gotFin c.pcb.state c'.pcb.state := by
  unfold tcpProcessSynRcvd at h
  dsimp only at h
  split_ifs at h with hack hbtw hacc
  · cases h; exact hs ▸ .synRcvdEstablished hack (between_succ hbtw).1 (between_succ hbtw).2
  · cases h; exact hs ▸ .synRcvdEstablished hack (between_succ hbtw).1 (between_succ hbtw).2
  · rw [hs]
    obtain ⟨hlt, hle⟩ := between_succ hbtw
    obtain ⟨c₂, h₂, h⟩ := Option.map_eq_some'.mp h
    cases h
    obtain ⟨c₁, ⟨-, -, hst⟩, hd, hstate⟩ := tcpSynRcvdAccepted_state h₂
    rw [hstate, hd]
    split
    · exact .closeWait _ (.inr rfl) ‹_›
    · rcases hst with hst | ⟨-, -, hg⟩
      · exact hst ▸ .synRcvdEstablished hack hlt hle
      · simp_all
  · cases h; exact .stay _
  · cases h; exact .stay _
  · cases h; exact .stay _

private theorem ack_of_ackedSndNxt {c : Ctx} (h : c.ackedSndNxt = true) : c.d.flags.ack = true := by
  simp only [Ctx.ackedSndNxt, Bool.and_eq_true] at h; exact h.1

/-- The move after `tcp_receive` in a synchronized state is a legal edge. -/
theorem tcpSyncedTransition_edge {c₀ c₁ : Ctx} (h : RcvStateStep c₀ c₁) :
    LegalEdge c₀.pcb c₀.d (tcpSyncedTransition c₀.pcb.state c₁).d.recvFlags.gotFin c₀.pcb.state
      (tcpSyncedTransition c₀.pcb.state c₁).pcb.state := by
  obtain ⟨hf, -, hs⟩ := h
  have hack : c₁.ackedSndNxt = true → c₀.d.flags.ack = true := fun h => hf ▸ ack_of_ackedSndNxt h
  generalize c₀.pcb.state = st at hs ⊢
  have keep : st ≠ .established → c₁.pcb.state = st := by
    rintro hne; rcases hs with hs | ⟨rfl, -⟩ <;> simp_all
  cases st <;> simp only [tcpSyncedTransition] <;> (try exact keep (by simp) ▸ .stay _)
  · split
    · exact .closeWait _ (.inl rfl) ‹_›
    · rcases hs with hs | ⟨-, -, hg⟩
      · exact hs ▸ .stay _
      · simp_all [Ctx.gotFin]
  · split_ifs with hg ha ha
    · exact .finWait1TimeWait hg
    · exact .finWait1Closing hg
    · exact .finWait1FinWait2 (hack ha)
    · exact keep (by simp) ▸ .stay _
  · split_ifs with hg
    · exact .finWait2TimeWait hg
    · exact keep (by simp) ▸ .stay _
  · split_ifs with hg
    · exact keep (by simp) ▸ .stay _
    · exact keep (by simp) ▸ .stay _
  · split_ifs with ha
    · exact .closingTimeWait (hack ha)
    · exact keep (by simp) ▸ .stay _
  · split_ifs <;> exact keep (by simp) ▸ .stay _

theorem tcpProcessSynced_edge (h : tcpProcessSynced cfg env c = some c') :
    LegalEdge c.pcb c.d c'.d.recvFlags.gotFin c.pcb.state c'.pcb.state := by
  obtain ⟨c₁, h₁, rfl⟩ := Option.map_eq_some'.mp h
  exact tcpSyncedTransition_edge (tcpReceive_step h₁)

theorem tcpProcessState_edge (h : tcpProcessState cfg env c = some (c', err)) :
    LegalEdge c.pcb c.d c'.d.recvFlags.gotFin c.pcb.state c'.pcb.state := by
  unfold tcpProcessState at h
  split at h
  · exact tcpProcessSynSent_edge ‹_› h
  · exact tcpProcessSynRcvd_edge ‹_› h
  all_goals first
    | (cases h; exact .stay _)
    | (obtain ⟨c₁, h₁, h⟩ := Option.map_eq_some'.mp h; cases h; exact tcpProcessSynced_edge h₁)

theorem tcpProcessPrepare_frame (cfg : Config) (env : Env) (c : Ctx) :
    let c₁ := tcpProcessPrepare cfg env c
    c₁.d = c.d ∧ c₁.pcb.state = c.pcb.state ∧ c₁.pcb.unacked = c.pcb.unacked ∧
      c₁.pcb.lastack = c.pcb.lastack ∧ c₁.pcb.sndNxt = c.pcb.sndNxt := by
  have h := tcpParseopt_frame cfg c.d
    { (if c.pcb.flags.rxclosed then c.pcb else { c.pcb with tmr := env.ticks }) with keepCntSent := 0 }
  refine ⟨rfl, ?_, ?_, ?_, ?_⟩ <;> simp only [tcpProcessPrepare] <;> rw [h] <;> split <;> rfl

/-- Every state change `tcp_process` makes is a legal edge. -/
theorem tcpProcess_edge (h : tcpProcess cfg env c = some (c', err)) :
    LegalEdge c.pcb c.d c'.d.recvFlags.gotFin c.pcb.state c'.pcb.state := by
  unfold tcpProcess at h
  dsimp only at h
  split_ifs at h
  · cases h; exact .stay _
  · cases h; exact .stay _
  · cases h; exact .stay _
  · obtain ⟨hd, hs, hu, hl, hn⟩ := tcpProcessPrepare_frame cfg env c
    have := tcpProcessState_edge h
    rw [hd, hs] at this
    exact this.congr hu.symm hl.symm hn.symm rfl rfl

end Process

section Input
variable {cfg : Config} {env : Env}

theorem synWindows_state (d : InData) (pcb : Pcb) : (synWindows cfg d pcb).state = pcb.state := by
  have h := congrArg Pcb.state (tcpParseopt_frame cfg d pcb)
  exact h

/-- TIME_WAIT moves only to SYN_RCVD, on a SYN without ACK that may reuse the PCB. -/
theorem tcpTimewaitInput_edge {c c' : Ctx} {err : ErrT} (g : Bool) (hs : c.pcb.state = .timeWait)
    (h : tcpTimewaitInput cfg env c = some (c', err)) :
    LegalEdge c.pcb c.d g c.pcb.state c'.pcb.state := by
  unfold tcpTimewaitInput at h
  dsimp only at h
  split_ifs at h with hrst hsyn
  · cases h; exact .stay _
  · obtain ⟨ts, -, h⟩ := Option.map_eq_some'.mp h
    split_ifs at h
    · have : c'.pcb.state = .synRcvd := by
        rw [← congrArg (·.1.pcb.state) h]; unfold tcpPcbReuse; dsimp only
        split_ifs <;> exact synWindows_state _ _
      simp only [Bool.and_eq_true, Bool.not_eq_true'] at hsyn
      exact this ▸ hs ▸ .reuse hsyn.1 hsyn.2
    · cases h; exact .stay _
  all_goals cases h; exact .stay _

/-- What the upcalls must leave alone: the state and the receive flags. -/
def upcallView (c : Ctx) : TcpState × RecvFlags := (c.pcb.state, c.d.recvFlags)

theorem upcallSent_view (env : Env) (c : Ctx) : upcallView (upcallSent env c).1 = upcallView c := by
  unfold upcallSent; split <;> rfl

theorem upcallRxClosed_view (c : Ctx) : upcallView (upcallRxClosed c).1 = upcallView c := by
  unfold upcallRxClosed; split <;> rfl

theorem upcallRecv_view (env : Env) (c : Ctx) : upcallView (upcallRecv env c).1 = upcallView c := by
  unfold upcallRecv; dsimp only; split_ifs <;> rfl

theorem upcallClosed_view (env : Env) (c : Ctx) : upcallView (upcallClosed env c).1 = upcallView c := by
  unfold upcallClosed; split <;> rfl

theorem thenUpcall_view {α : Type} {V : Ctx → α} {f : Ctx → Ctx × Bool} (hf : ∀ c, V (f c).1 = V c) :
    ∀ x, V (thenUpcall f x).1 = V x.1
  | (c, true) => hf c
  | (_, false) => rfl

theorem tcpInputUpcalls_state (env : Env) (c : Ctx) :
    (∀ p, (tcpInputUpcalls env c).pcb = some p → p.state = c.pcb.state) ∧
      (tcpInputUpcalls env c).recvFlags = c.d.recvFlags := by
  unfold tcpInputUpcalls
  have h := (thenUpcall_view (upcallClosed_view env) _).trans <|
    (thenUpcall_view (upcallRecv_view env) _).trans <|
    (thenUpcall_view upcallRxClosed_view _).trans (upcallSent_view env c)
  generalize thenUpcall _ _ = x at h ⊢
  obtain ⟨c', _ | _⟩ := x
  · exact ⟨fun p hp => (by cases hp), congrArg Prod.snd h⟩
  · exact ⟨fun p hp => by cases hp; exact congrArg Prod.fst h, congrArg Prod.snd h⟩

/-- Every call of `L3_level_tcp_input` on a PCB that survives it moves the PCB's state along a
legal edge, `TF_GOT_FIN` meaning that this call raised it. -/
theorem tcpInputDispatch_legalEdge (pcb : Pcb) (d : InData) (r : InputResult)
    (h : tcpInputDispatch cfg env (some pcb) d = some r) (pcb' : Pcb) (hr : r.pcb = some pcb') :
    LegalEdge pcb d r.recvFlags.gotFin pcb.state pcb'.state := by
  unfold tcpInputDispatch at h
  dsimp only at h
  split_ifs at h with hact hlis htw
  · obtain ⟨⟨c, err⟩, hp, rfl⟩ := Option.map_eq_some'.mp h
    have he := tcpProcess_edge hp
    dsimp only at hr he ⊢
    split_ifs at hr ⊢
    obtain ⟨hs, hf⟩ := tcpInputUpcalls_state env c
    rw [hs pcb' hr, hf]
    exact he.congr rfl rfl rfl rfl rfl
  · cases h; cases hr; exact .stay _
  · obtain ⟨⟨c, err⟩, hp, rfl⟩ := Option.map_eq_some'.mp h
    cases hr
    exact tcpTimewaitInput_edge _ htw hp
  · cases h; cases hr; exact .stay _

/-- An ESTABLISHED connection with nothing in flight, expecting byte 1000. -/
def sampleEstPcb : Pcb :=
  { state := .established, rcvNxt := 1000, rcvWnd := 100, rcvWndMax := 100, sndNxt := 500,
    lastack := 500 }

def sampleFinHdr : TcpHdr :=
  { src := 80, dest := 4000, seqno := 1000, ackno := 500, hdrlen := 5,
    flags := { fin := true, ack := true }, wnd := 1000 }

/-- The peer's FIN, in sequence, acknowledging everything. -/
def sampleFinIn : InData where
  tcphdr := sampleFinHdr
  seqno := 1000
  ackno := 500
  tcplen := 1
  flags := sampleFinHdr.flags
  inseg := ⟨[⟨[], 0, 0, false⟩], sampleFinHdr, 1000, 0, false, sampleFinHdr.flags⟩

def sampleFinResult : InputResult :=
  (tcpInputDispatch {} {} (some sampleEstPcb) sampleFinIn).getD ⟨none, [], {}, []⟩

theorem sampleFin_legalEdge :
    tcpInputDispatch {} {} (some sampleEstPcb) sampleFinIn = some sampleFinResult ∧
      sampleFinResult.pcb = some (sampleFinResult.pcb.getD sampleEstPcb) ∧
      LegalEdge sampleEstPcb sampleFinIn sampleFinResult.recvFlags.gotFin sampleEstPcb.state
        (sampleFinResult.pcb.getD sampleEstPcb).state :=
  have h : tcpInputDispatch {} {} (some sampleEstPcb) sampleFinIn = some sampleFinResult := rfl
  ⟨h, rfl, tcpInputDispatch_legalEdge _ _ _ h _ rfl⟩

example : (sampleFinResult.pcb.getD sampleEstPcb).state = .closeWait ∧
    sampleFinResult.recvFlags.gotFin = true := by decide

end Input

/-! A FIN on `unsent` has not been sent, so `snd_nxt` does not count it: an ACK up to
`snd_nxt` does not acknowledge it, yet `tcp_process` leaves FIN_WAIT_1 on such an ACK. -/

/-- Our FIN, queued on `unsent` behind a closed window, at sequence number 500. -/
def sampleUnsentFin : TcpSeg :=
  ⟨[⟨[], 0, 0, false⟩], { sampleFinHdr with src := 4000, dest := 80, seqno := 500, ackno := 1000 },
    500, 0, false, { fin := true, ack := true }⟩

/-- FIN_WAIT_1 with everything before the FIN acknowledged and the FIN not yet sent. -/
def sampleFinWait1Pcb : Pcb :=
  { sampleEstPcb with state := .finWait1, unsent := [sampleUnsentFin], sndQueuelen := 1 }

/-- The peer's pure ACK of everything sent, `ackno = snd_nxt = 500`. -/
def sampleAckIn : InData :=
  let h := { sampleFinHdr with flags := { ack := true } }
  { sampleFinIn with
    tcphdr := h, tcplen := 0, flags := h.flags, inseg := ⟨[⟨[], 0, 0, false⟩], h, 1000, 0, false, h.flags⟩ }

theorem finWait1_leaves_on_unsent_fin :
    ((tcpInputDispatch {} {} (some sampleFinWait1Pcb) sampleAckIn).bind (·.pcb)).map
      (fun p => (p.state, p.unsent)) = some (.finWait2, [sampleUnsentFin]) := by
  decide

end XlioTcp
