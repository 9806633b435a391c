import XlioTcp.Input
import XlioTcp.Retransmit

/-! Frame lemmas: what each step of the input path leaves alone. The acknowledgment half of
`tcp_receive` never touches the packet context or the receive half of the connection, and
option parsing touches only the parameters the options negotiate. -/
namespace XlioTcp

/-- The receive half of a connection: the state, and what reassembly reads and writes. -/
structure RcvSide where
  state : TcpState
  rcvNxt : U32
  rcvWnd : U32
  rcvWndMax : U32
  ooseq : List TcpSeg

def Pcb.rcvSide (p : Pcb) : RcvSide := ⟨p.state, p.rcvNxt, p.rcvWnd, p.rcvWndMax, p.ooseq⟩

/-- `c'` has the packet context and the receive half of the connection of `c`. -/
def RcvFrame (c c' : Ctx) : Prop := c'.d = c.d ∧ c'.pcb.rcvSide = c.pcb.rcvSide

theorem RcvFrame.trans {c₁ c₂ c₃ : Ctx} (h₁ : RcvFrame c₁ c₂) (h₂ : RcvFrame c₂ c₃) :
    RcvFrame c₁ c₃ := ⟨h₂.1.trans h₁.1, h₂.2.trans h₁.2⟩

/-- `pcb'` differs from `pcb` at most in the parameters the options negotiate. -/
def OptFrame (pcb pcb' : Pcb) : Prop :=
  pcb' = { pcb with
    mss := pcb'.mss, sndScale := pcb'.sndScale, rcvScale := pcb'.rcvScale, flags := pcb'.flags,
    tsRecent := pcb'.tsRecent }

theorem OptFrame.trans {a b c : Pcb} (h₁ : OptFrame a b) (h₂ : OptFrame b c) : OptFrame a c := by
  unfold OptFrame at *
  rw [h₂, h₁]

/-- `ack_partial_or_whole_segment` moves `acked` and `snd_queuelen` only. -/
theorem ackPartialOrWholeSegment_frame {pcb pcb' : Pcb} {ackno : U32} {q q' : List TcpSeg}
    (h : ackPartialOrWholeSegment pcb ackno q = some (pcb', q')) :
    pcb' = { pcb with acked := pcb'.acked, sndQueuelen := pcb'.sndQueuelen } := by
  induction q generalizing pcb with
  | nil => cases h; rfl
  | cons s r ih =>
    unfold ackPartialOrWholeSegment at h
    split at h
    · split at h
      · split at h
        · cases h; rfl
        · obtain ⟨⟨s', n⟩, -, h⟩ := Option.map_eq_some'.mp h
          cases h; rfl
      · rw [ih h]
    · cases h; rfl

section AckPath
variable {cfg : Config} {env : Env} {c c' : Ctx}

theorem tcpWindowUpdate_rcvSide (pcb : Pcb) (d : InData) :
    (tcpWindowUpdate pcb d).1.rcvSide = pcb.rcvSide := by
  unfold tcpWindowUpdate; dsimp only; split_ifs <;> rfl

theorem tcpDupAck_frame (e : U32) : RcvFrame c (tcpDupAck cfg c e) := by
  unfold tcpDupAck; dsimp only; split_ifs <;> exact ⟨rfl, rfl⟩

theorem tcpNewAck_frame {p : Bool} (h : tcpNewAck cfg c p = some c') : RcvFrame c c' := by
  simp only [tcpNewAck, Option.bind_eq_bind, Option.bind_eq_some] at h
  obtain ⟨⟨pcb, q⟩, hq, h⟩ := h
  cases h
  refine ⟨rfl, ?_⟩
  rw [ackPartialOrWholeSegment_frame hq]
  simp only [Pcb.rcvSide, ccApply]
  split_ifs <;> rfl

theorem tcpAckClassify_frame {e : U32} {p : Bool} (h : tcpAckClassify cfg c e p = some c') :
    RcvFrame c c' := by
  unfold tcpAckClassify at h
  split at h
  · cases h; exact tcpDupAck_frame e
  · split at h
    · exact tcpNewAck_frame h
    · cases h; exact ⟨rfl, rfl⟩

theorem tcpAckUnsent_frame (h : tcpAckUnsent c = some c') : RcvFrame c c' := by
  obtain ⟨⟨pcb, q⟩, hq, rfl⟩ := Option.map_eq_some'.mp h
  exact ⟨rfl, by rw [ackPartialOrWholeSegment_frame hq]; rfl⟩

theorem tcpRttSample_frame : RcvFrame c (tcpRttSample env c) := by
  unfold tcpRttSample; dsimp only; split_ifs <;> exact ⟨rfl, rfl⟩

/-- The ACK half of `tcp_receive` leaves the packet and the receive half alone. -/
theorem tcpReceiveAck_frame (h : tcpReceiveAck cfg env c = some c') : RcvFrame c c' := by
  simp only [tcpReceiveAck, Option.bind_eq_bind, Option.bind_eq_some] at h
  obtain ⟨c₁, h₁, c₂, h₂, h₃⟩ := h
  cases h₃
  have hw : RcvFrame c { c with pcb := (tcpWindowUpdate c.pcb c.d).1 } :=
    ⟨rfl, tcpWindowUpdate_rcvSide c.pcb c.d⟩
  exact (hw.trans (tcpAckClassify_frame h₁)).trans ((tcpAckUnsent_frame h₂).trans tcpRttSample_frame)

end AckPath

section OptionWalk
variable {cfg : Config} {d : InData} {pcb : Pcb}

/-- A property every option keeps holds along the walk. -/
theorem parseoptWalk_induct {P : Pcb → Prop}
    (hstep : ∀ {maxC c c' pcb pcb'}, parseoptStep cfg d maxC c pcb = some (pcb', c') → P pcb → P pcb')
    (maxC : Nat) : ∀ fuel c pcb, P pcb → P (parseoptWalk cfg d maxC fuel c pcb)
  | 0, _, _, h => h
  | fuel + 1, c, pcb, h => by
    unfold parseoptWalk
    split
    · split
      · exact h
      · exact parseoptWalk_induct hstep maxC fuel _ _ (hstep ‹_› h)
    · exact h

theorem tcpParseopt_induct {P : Pcb → Prop}
    (hstep : ∀ {maxC c c' pcb pcb'}, parseoptStep cfg d maxC c pcb = some (pcb', c') → P pcb → P pcb')
    (h : P pcb) : P (tcpParseopt cfg d pcb) := by
  unfold tcpParseopt; split
  · exact parseoptWalk_induct hstep _ _ _ _ h
  · exact h

end OptionWalk

section Options
variable (cfg : Config) (d : InData)

theorem parseoptStep_frame {maxC c c' : Nat} {pcb pcb' : Pcb}
    (h : parseoptStep cfg d maxC c pcb = some (pcb', c')) : OptFrame pcb pcb' := by
  unfold parseoptStep at h
  dsimp only at h
  split at h <;> (try split_ifs at h) <;> (try cases h) <;> exact rfl

/-- `tcp_parseopt` changes only the MSS, the window scales, the flags and `ts_recent`. -/
theorem tcpParseopt_frame (pcb : Pcb) : OptFrame pcb (tcpParseopt cfg d pcb) :=
  tcpParseopt_induct (P := OptFrame pcb) (fun h hp => hp.trans (parseoptStep_frame cfg d h)) rfl

/-- Without a SYN, the options change only `ts_recent`. -/
theorem parseoptStep_of_not_syn {maxC c c' : Nat} {pcb pcb' : Pcb} (hs : d.flags.syn = false)
    (h : parseoptStep cfg d maxC c pcb = some (pcb', c')) : pcb' = { pcb with tsRecent := pcb'.tsRecent } := by
  unfold parseoptStep at h
  simp only [hs, Bool.false_eq_true, if_false, Bool.and_false, Bool.false_and] at h
  split at h <;> (try split_ifs at h) <;> (try cases h) <;> rfl

theorem tcpParseopt_of_not_syn (pcb : Pcb) (hs : d.flags.syn = false) :
    tcpParseopt cfg d pcb = { pcb with tsRecent := (tcpParseopt cfg d pcb).tsRecent } :=
  tcpParseopt_induct (P := fun q => q = { pcb with tsRecent := q.tsRecent })
    (fun h hq => by rw [parseoptStep_of_not_syn cfg d hs h, hq]) rfl

end Options

end XlioTcp
