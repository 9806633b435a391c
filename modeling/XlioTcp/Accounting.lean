import XlioTcp.AckEffects
import XlioTcp.Handshake

/-! The accounting of the input path. On the send side, `tcp_in.c` never sends, so `snd_nxt`
stays; an ACK of new data credits `snd_buf` with exactly the bytes that leave the flight, so
`snd_buf` plus the flight stays as well, except for the SYN's byte in SYN_SENT. Option parsing
and `UPDATE_PCB_BY_MSS` keep the peer's window shift at most 14 and the MSS at most the one we
advertised, so `SND_WND_SCALE` never loses a bit of the peer's window. On the receive side,
every byte `tcp_receive` takes from `rcv_wnd` moves `rcv_nxt` by one, so `tcp_process` keeps
the right edge `rcv_nxt + rcv_wnd` of the receive window. -/
namespace XlioTcp

/-- The send-side quantities the input path keeps or bounds. -/
structure SndBook where
  sndNxt : U32
  /-- `snd_buf` plus the bytes in flight, `snd_nxt - lastack` -/
  credit : U32
  advtsdMss : U16
  mss : U16
  sndScale : U8

def Pcb.sndBook (p : Pcb) : SndBook :=
  ⟨p.sndNxt, p.sndBuf + (p.sndNxt - p.lastack), p.advtsdMss, p.mss, p.sndScale⟩

/-- The window shift is at most 14 (RFC 7323) and the MSS at most the one we advertised. -/
structure SndBook.Bounded (b : SndBook) : Prop where
  scale_le : b.sndScale.toNat ≤ 14
  mss_le : b.mss ≤ b.advtsdMss

instance (b : SndBook) : Decidable b.Bounded :=
  decidable_of_iff (b.sndScale.toNat ≤ 14 ∧ b.mss ≤ b.advtsdMss)
    ⟨fun h => ⟨h.1, h.2⟩, fun h => ⟨h.1, h.2⟩⟩

/-- Under the bound on the shift, `SND_WND_SCALE` keeps every bit of the 16-bit window. -/
theorem Pcb.sndWndScale_toNat {p : Pcb} (h : p.sndBook.Bounded) (w : U16) :
    (p.sndWndScale w).toNat = w.toNat * 2 ^ p.sndScale.toNat := by
  have hs : 2 ^ p.sndScale.toNat ≤ 2 ^ 14 := Nat.pow_le_pow_right (by decide) h.scale_le
  have hw : w.toNat * 2 ^ p.sndScale.toNat < 2 ^ 32 :=
    calc w.toNat * 2 ^ p.sndScale.toNat < 2 ^ 16 * 2 ^ 14 :=
          Nat.mul_lt_mul_of_lt_of_le w.isLt hs (Nat.two_pow_pos _)
      _ ≤ 2 ^ 32 := by decide
  have h16 : w.toNat < 2 ^ 32 := lt_of_lt_of_le w.isLt (by decide)
  simp only [Pcb.sndWndScale, BitVec.toNat_shiftLeft, BitVec.toNat_setWidth, Nat.mod_eq_of_lt h16,
    Nat.shiftLeft_eq, Nat.mod_eq_of_lt hw]

/-- An ACK of `a - l` new bytes moves them from the flight to `snd_buf`. -/
theorem credit_ack (b n l a : U32) : b + (a - l) + (n - a) = b + (n - l) := by
  rw [add_assoc, sub_add_sub_cancel']

section ReceivePath
variable {cfg : Config} {env : Env} {c c' : Ctx}

theorem ack_book : c.ack.pcb.sndBook = c.pcb.sndBook := by
  unfold Ctx.ack; split <;> rfl

/-- The left-edge trim changes the PCB at most by an immediate ACK. -/
theorem tcpTrimLeftEdge_pcb (h : tcpTrimLeftEdge c = some c') : c'.pcb = c.pcb ∨ c'.pcb = c.pcb.ackNow := by
  simp only [tcpTrimLeftEdge, Option.map_eq_map] at h
  split_ifs at h
  · obtain ⟨_, -, rfl⟩ := Option.map_eq_some'.mp h; exact .inl rfl
  · cases h; exact .inr rfl
  · cases h; exact .inl rfl

/-- The cut of an in-sequence segment to the window leaves the PCB and the sequence number. -/
theorem tcpTrimToWindow_pcb (h : tcpTrimToWindow c = some c') : c'.pcb = c.pcb ∧ c'.d.seqno = c.d.seqno := by
  simp only [tcpTrimToWindow, Option.map_eq_map] at h
  split_ifs at h <;> first
    | (cases h; exact ⟨rfl, rfl⟩)
    | (obtain ⟨_, -, rfl⟩ := Option.map_eq_some'.mp h; exact ⟨rfl, rfl⟩)

/-- The cut where `ooseq` resumes changes only `ooseq` of the PCB, and keeps the sequence
number. -/
theorem tcpTrimToOoseq_pcb (h : tcpTrimToOoseq c = some c') :
    c'.pcb = { c.pcb with ooseq := c'.pcb.ooseq } ∧ c'.d.seqno = c.d.seqno := by
  simp only [tcpTrimToOoseq, Option.map_eq_map] at h
  split_ifs at h
  · cases h; exact ⟨rfl, rfl⟩
  · cases h; exact ⟨rfl, rfl⟩
  · split at h
    · split_ifs at h <;> first
        | (cases h; exact ⟨rfl, rfl⟩)
        | (obtain ⟨_, -, rfl⟩ := Option.map_eq_some'.mp h; exact ⟨rfl, rfl⟩)
    · cases h; exact ⟨rfl, rfl⟩

theorem tcpTrimLeftEdge_book (h : tcpTrimLeftEdge c = some c') : c'.pcb.sndBook = c.pcb.sndBook := by
  rcases tcpTrimLeftEdge_pcb h with e | e <;> exact e ▸ rfl

theorem tcpTrimToWindow_book (h : tcpTrimToWindow c = some c') : c'.pcb.sndBook = c.pcb.sndBook := by
  rw [(tcpTrimToWindow_pcb h).1]

theorem tcpTrimToOoseq_book (h : tcpTrimToOoseq c = some c') : c'.pcb.sndBook = c.pcb.sndBook := by
  rw [(tcpTrimToOoseq_pcb h).1]; rfl

theorem tcpDrainOoseq_book (q : List TcpSeg) (c : Ctx) :
    (tcpDrainOoseq q c).pcb.sndBook = c.pcb.sndBook := by
  induction q generalizing c with
  | nil => rfl
  | cons s r ih =>
    unfold tcpDrainOoseq
    split
    · exact ih _
    · rfl

theorem tcpAckDelivered_book : (tcpAckDelivered cfg c).pcb.sndBook = c.pcb.sndBook := by
  unfold tcpAckDelivered; split
  · rfl
  · exact ack_book

theorem tcpReceiveInSeq_book (h : tcpReceiveInSeq cfg c = some c') : c'.pcb.sndBook = c.pcb.sndBook := by
  simp only [tcpReceiveInSeq, Option.bind_eq_bind, Option.bind_eq_some] at h
  obtain ⟨c₁, h₁, c₂, h₂, h₃⟩ := h
  cases h₃
  exact tcpAckDelivered_book.trans <| (tcpDrainOoseq_book _ _).trans <|
    (tcpTrimToOoseq_book h₂).trans (tcpTrimToWindow_book h₁)

theorem tcpReceiveOoseq_book (h : tcpReceiveOoseq env c = some c') : c'.pcb.sndBook = c.pcb.sndBook := by
  simp only [tcpReceiveOoseq, Option.map_eq_map] at h
  split at h
  · cases h; rfl
  · obtain ⟨_, -, rfl⟩ := Option.map_eq_some'.mp h; rfl

theorem tcpReceiveData_book (h : tcpReceiveData cfg env c = some c') : c'.pcb.sndBook = c.pcb.sndBook := by
  simp only [tcpReceiveData, Option.bind_eq_bind, Option.bind_eq_some] at h
  obtain ⟨c₁, h₁, h₂⟩ := h
  refine Eq.trans ?_ (tcpTrimLeftEdge_book h₁)
  split_ifs at h₂
  · exact tcpReceiveInSeq_book h₂
  · exact tcpReceiveOoseq_book h₂
  · cases h₂; rfl

theorem tcpWindowUpdate_book (p : Pcb) (d : InData) : (tcpWindowUpdate p d).1.sndBook = p.sndBook := by
  unfold tcpWindowUpdate; dsimp only; split_ifs <;> rfl

theorem tcpDupAck_book (e : U32) : (tcpDupAck cfg c e).pcb.sndBook = c.pcb.sndBook := by
  unfold tcpDupAck; dsimp only; split_ifs <;> rfl

/-- An ACK of new data credits `snd_buf` with exactly the `ackno - lastack` bytes it takes out of
the flight. -/
theorem tcpNewAck_book {p : Bool} (h : tcpNewAck cfg c p = some c') : c'.pcb.sndBook = c.pcb.sndBook := by
  unfold tcpNewAck at h
  dsimp only [Option.bind_eq_bind] at h
  obtain ⟨⟨pcb, q⟩, hq, h⟩ := Option.bind_eq_some.mp h
  cases h
  have e := congrArg Pcb.sndBook (ackPartialOrWholeSegment_frame hq)
  split <;> refine e.trans ?_ <;> split <;> split <;>
    simp only [Pcb.sndBook, ccApply, credit_ack]

theorem tcpAckClassify_book {e : U32} {p : Bool} (h : tcpAckClassify cfg c e p = some c') :
    c'.pcb.sndBook = c.pcb.sndBook := by
  unfold tcpAckClassify at h
  split_ifs at h
  · cases h; exact tcpDupAck_book e
  · exact tcpNewAck_book h
  · cases h; rfl

theorem tcpAckUnsent_book (h : tcpAckUnsent c = some c') : c'.pcb.sndBook = c.pcb.sndBook := by
  obtain ⟨⟨pcb, q⟩, hq, rfl⟩ := Option.map_eq_some'.mp h
  have e := congrArg Pcb.sndBook (ackPartialOrWholeSegment_frame hq)
  exact e

theorem tcpRttSample_book : (tcpRttSample env c).pcb.sndBook = c.pcb.sndBook := by
  unfold tcpRttSample; dsimp only; split_ifs <;> rfl

theorem tcpReceiveAck_book (h : tcpReceiveAck cfg env c = some c') : c'.pcb.sndBook = c.pcb.sndBook := by
  simp only [tcpReceiveAck, Option.bind_eq_bind, Option.bind_eq_some] at h
  obtain ⟨c₁, h₁, c₂, h₂, h₃⟩ := h
  cases h₃
  exact tcpRttSample_book.trans ((tcpAckUnsent_book h₂).trans
    ((tcpAckClassify_book h₁).trans (tcpWindowUpdate_book c.pcb c.d)))

/-- `tcp_receive` keeps the send book: its ACK half credits `snd_buf` with what leaves the
flight, and its data half touches none of it. -/
theorem tcpReceive_book (h : tcpReceive cfg env c = some c') : c'.pcb.sndBook = c.pcb.sndBook := by
  unfold tcpReceive at h
  obtain ⟨c₁, h₁, h₂⟩ := Option.bind_eq_some.mp h
  have e₁ : c₁.pcb.sndBook = c.pcb.sndBook := by
    split at h₁
    · exact tcpReceiveAck_book h₁
    · cases h₁; rfl
  refine Eq.trans ?_ e₁
  split_ifs at h₂
  · exact tcpReceiveData_book h₂
  · cases h₂; rfl
  · cases h₂; rfl

end ReceivePath

/-- What a call may do to the send book of the PCB: `snd_nxt` and `advtsd_mss` stay, the bounds
stay true, and so does the credit, unless the PCB is in SYN_SENT. -/
structure BookStep (p p' : Pcb) : Prop where
  sndNxt_eq : p'.sndNxt = p.sndNxt
  advtsdMss_eq : p'.advtsdMss = p.advtsdMss
  bounded : p.sndBook.Bounded → p'.sndBook.Bounded
  credit_eq : p.state ≠ .synSent → p'.sndBook.credit = p.sndBook.credit

namespace BookStep
variable {p₁ p₂ p₃ : Pcb}

theorem of_book (h : p₂.sndBook = p₁.sndBook) : BookStep p₁ p₂ :=
  ⟨congrArg SndBook.sndNxt h, congrArg SndBook.advtsdMss h, fun hb => h ▸ hb,
    fun _ => congrArg SndBook.credit h⟩

theorem book_right (h : BookStep p₁ p₂) (e : p₃.sndBook = p₂.sndBook) : BookStep p₁ p₃ :=
  ⟨(congrArg SndBook.sndNxt e).trans h.sndNxt_eq, (congrArg SndBook.advtsdMss e).trans h.advtsdMss_eq,
    fun hb => e ▸ h.bounded hb, fun hs => (congrArg SndBook.credit e).trans (h.credit_eq hs)⟩

theorem trans (h₁ : BookStep p₁ p₂) (h₂ : BookStep p₂ p₃) (hs : p₂.state = p₁.state) : BookStep p₁ p₃ :=
  ⟨h₂.sndNxt_eq.trans h₁.sndNxt_eq, h₂.advtsdMss_eq.trans h₁.advtsdMss_eq,
    fun hb => h₂.bounded (h₁.bounded hb), fun h => (h₂.credit_eq (hs ▸ h)).trans (h₁.credit_eq h)⟩

end BookStep

/-! ## Option parsing -/

section Options
variable {cfg : Config} {d : InData} {pcb : Pcb}

/-- An MSS that `tcp_parseopt` does not replace by `advtsd_mss` is at most `advtsd_mss`. -/
theorem mss_le_of_not_clamp {m a : U16} (h : ¬(m > a || m == 0) = true) : m ≤ a := by
  simp only [Bool.or_eq_true, decide_eq_true_eq, not_or] at h
  exact BitVec.not_lt.mp h.1

/-- One option keeps each bound: an MSS option is clamped to `advtsd_mss`, a window-scale option
to 14, and nothing writes `advtsd_mss`. -/
theorem parseoptStep_bounds {maxC c c' : Nat} {pcb' : Pcb}
    (h : parseoptStep cfg d maxC c pcb = some (pcb', c')) :
    (pcb.sndScale.toNat ≤ 14 → pcb'.sndScale.toNat ≤ 14) ∧
      (pcb.mss ≤ pcb.advtsdMss → pcb'.mss ≤ pcb'.advtsdMss) := by
  unfold parseoptStep at h
  dsimp only at h
  split at h <;> (try split_ifs at h) <;> cases h
  all_goals first
    | exact ⟨id, id⟩
    | exact ⟨id, fun _ => BitVec.le_refl _⟩
    | exact ⟨id, fun _ => mss_le_of_not_clamp ‹_›⟩
    | exact ⟨fun _ => by decide, id⟩
    | exact ⟨fun _ => (Nat.mod_le _ _).trans (by omega), id⟩

theorem tcpParseopt_scale_le (h : pcb.sndScale.toNat ≤ 14) : (tcpParseopt cfg d pcb).sndScale.toNat ≤ 14 :=
  tcpParseopt_induct (P := fun p => p.sndScale.toNat ≤ 14) (fun hs => (parseoptStep_bounds hs).1) h

/-- `tcp_parseopt` touches the MSS and the window shift of the book, each within its bound. -/
theorem tcpParseopt_step {q : Pcb} (e : pcb.sndBook = q.sndBook) : BookStep q (tcpParseopt cfg d pcb) := by
  have f : (tcpParseopt cfg d pcb).sndBook = { q.sndBook with
      mss := (tcpParseopt cfg d pcb).mss, sndScale := (tcpParseopt cfg d pcb).sndScale } :=
    (congrArg Pcb.sndBook (tcpParseopt_frame cfg d pcb) :).trans (by rw [← e]; rfl)
  refine ⟨congrArg SndBook.sndNxt f, congrArg SndBook.advtsdMss f, fun hb => ?_,
    fun _ => (congrArg SndBook.credit f :)⟩
  rw [← e] at hb
  exact ⟨tcpParseopt_scale_le hb.scale_le,
    tcpParseopt_induct (P := fun p => p.mss ≤ p.advtsdMss) (fun hs => (parseoptStep_bounds hs).2) hb.mss_le⟩

end Options

/-! ## `tcp_process` -/

section Process
variable {cfg : Config} {env : Env} {c c' : Ctx} {err : ErrT}

theorem tcpProcessPrepare_step : BookStep c.pcb (tcpProcessPrepare cfg env c).pcb :=
  tcpParseopt_step (by split <;> rfl)

/-- The SYN|ACK in SYN_SENT moves `lastack` without a credit, and takes the lower of the MSS and
`tcp_send_mss`. -/
theorem tcpSynSentEstablish_step (hs : c.pcb.state = .synSent) :
    BookStep c.pcb (tcpSynSentEstablish cfg env c).1.pcb := by
  obtain ⟨k, e⟩ : ∃ k, (tcpSynSentEstablish cfg env c).1.pcb.sndBook =
      { c.pcb.sndBook with credit := k, mss := if c.pcb.mss ≤ env.sendMss then c.pcb.mss else env.sendMss } := by
    unfold tcpSynSentEstablish; dsimp only; split_ifs <;> exact ⟨_, rfl⟩
  refine ⟨congrArg SndBook.sndNxt e, congrArg SndBook.advtsdMss e, fun hb => e ▸ ⟨hb.scale_le, ?_⟩,
    fun h => absurd hs h⟩
  refine BitVec.le_trans ?_ hb.mss_le
  split_ifs with hm
  · exact BitVec.le_refl _
  · exact Nat.le_of_lt (BitVec.not_le.mp hm)

theorem Pcb.purge_book (p : Pcb) : p.purge.sndBook = p.sndBook := by
  unfold Pcb.purge; split <;> rfl

theorem tcpSynRcvdAccepted_book (h : tcpSynRcvdAccepted cfg env c = some c') :
    c'.pcb.sndBook = c.pcb.sndBook := by
  obtain ⟨c₁, h₁, rfl⟩ := Option.map_eq_some'.mp h
  have e := tcpReceive_book h₁
  dsimp only
  split_ifs <;> exact e

theorem tcpProcessSynRcvd_book (h : tcpProcessSynRcvd cfg env c = some (c', err)) :
    c'.pcb.sndBook = c.pcb.sndBook := by
  unfold tcpProcessSynRcvd at h
  dsimp only at h
  split_ifs at h
  · cases h; rfl
  · cases h; rfl
  · obtain ⟨c₁, h₁, h⟩ := Option.map_eq_some'.mp h
    cases h
    exact (tcpSynRcvdAccepted_book h₁ :)
  all_goals cases h; rfl

theorem tcpSyncedTransition_book (st : TcpState) (c : Ctx) :
    (tcpSyncedTransition st c).pcb.sndBook = c.pcb.sndBook := by
  unfold tcpSyncedTransition
  split <;> (try split_ifs) <;> first | rfl | exact Pcb.purge_book _

theorem tcpProcessSynced_book (h : tcpProcessSynced cfg env c = some c') :
    c'.pcb.sndBook = c.pcb.sndBook := by
  obtain ⟨c₁, h₁, rfl⟩ := Option.map_eq_some'.mp h
  exact (tcpSyncedTransition_book _ _).trans (tcpReceive_book h₁)

theorem tcpProcessSynSent_step (hs : c.pcb.state = .synSent)
    (h : tcpProcessSynSent cfg env c = some (c', err)) : BookStep c.pcb c'.pcb := by
  unfold tcpProcessSynSent at h
  split_ifs at h
  · obtain ⟨rseg, -, h⟩ := Option.map_eq_some'.mp h
    split_ifs at h
    · exact congrArg (·.1.pcb) h ▸ tcpSynSentEstablish_step hs
    · cases h; exact .of_book rfl
  all_goals cases h; exact .of_book rfl

theorem tcpProcessState_step (h : tcpProcessState cfg env c = some (c', err)) : BookStep c.pcb c'.pcb := by
  unfold tcpProcessState at h
  split at h
  · exact tcpProcessSynSent_step ‹_› h
  · exact .of_book (tcpProcessSynRcvd_book h)
  all_goals first
    | (cases h; exact .of_book rfl)
    | (obtain ⟨c₁, h₁, h⟩ := Option.map_eq_some'.mp h; cases h
       exact .of_book (tcpProcessSynced_book h₁ :))

/-- `tcp_process` keeps `snd_nxt`, `advtsd_mss` and the bounds, and, outside SYN_SENT, the
credit. -/
theorem tcpProcess_step (h : tcpProcess cfg env c = some (c', err)) : BookStep c.pcb c'.pcb := by
  unfold tcpProcess at h
  dsimp only at h
  split_ifs at h
  · cases h; exact .of_book rfl
  · cases h; exact .of_book rfl
  · cases h; exact .of_book rfl
  · exact tcpProcessPrepare_step.trans (tcpProcessState_step h) (tcpProcessPrepare_frame cfg env c).2.1

end Process

/-! ## `L3_level_tcp_input` -/

section Input
variable {cfg : Config} {env : Env}

/-- After option parsing the window set-up of a new connection takes the lower of the MSS and
`advtsd_mss`, so only the window shift needs a bound beforehand. -/
theorem synWindows_bounded {p : Pcb} (h : p.sndScale.toNat ≤ 14) (d : InData) :
    (synWindows cfg d p).sndBook.Bounded := by
  refine ⟨tcpParseopt_scale_le h, ?_⟩
  unfold synWindows
  dsimp only
  split_ifs with hm
  · exact hm
  · exact BitVec.le_refl _

theorem tcpPcbReuse_bounded {c : Ctx} (h : (env.recycle c.pcb).sndScale.toNat ≤ 14) :
    (tcpPcbReuse cfg env c).1.pcb.sndBook.Bounded := by
  unfold tcpPcbReuse; dsimp only; split_ifs <;> exact synWindows_bounded (by exact h) _

theorem tcpTimewaitInput_book {c c' : Ctx} {err : ErrT} (h : tcpTimewaitInput cfg env c = some (c', err)) :
    c'.pcb.sndBook = c.pcb.sndBook ∨ c'.pcb = (tcpPcbReuse cfg env c).1.pcb := by
  unfold tcpTimewaitInput at h
  dsimp only at h
  split_ifs at h
  · cases h; exact .inl rfl
  · obtain ⟨ts, -, h⟩ := Option.map_eq_some'.mp h
    split_ifs at h
    · exact .inr (congrArg (·.1.pcb) h).symm
    · cases h; exact .inl rfl
  all_goals cases h; exact .inl rfl

theorem upcallSent_book (env : Env) (c : Ctx) : (upcallSent env c).1.pcb.sndBook = c.pcb.sndBook := by
  unfold upcallSent; split <;> rfl

theorem upcallRxClosed_book (c : Ctx) : (upcallRxClosed c).1.pcb.sndBook = c.pcb.sndBook := by
  unfold upcallRxClosed; split <;> rfl

theorem upcallRecv_book (env : Env) (c : Ctx) : (upcallRecv env c).1.pcb.sndBook = c.pcb.sndBook := by
  unfold upcallRecv; dsimp only; split_ifs <;> rfl

theorem upcallClosed_book (env : Env) (c : Ctx) : (upcallClosed env c).1.pcb.sndBook = c.pcb.sndBook := by
  unfold upcallClosed; split <;> rfl

theorem thenUpcall_book {f : Ctx → Ctx × Bool} (hf : ∀ c, (f c).1.pcb.sndBook = c.pcb.sndBook) :
    ∀ x, (thenUpcall f x).1.pcb.sndBook = x.1.pcb.sndBook
  | (c, true) => hf c
  | (_, false) => rfl

/-- The upcalls after `tcp_process` give back only receive window. -/
theorem tcpInputUpcalls_book (env : Env) (c : Ctx) {p : Pcb} (h : (tcpInputUpcalls env c).pcb = some p) :
    p.sndBook = c.pcb.sndBook := by
  unfold tcpInputUpcalls at h
  have e := (thenUpcall_book (upcallClosed_book env) _).trans <|
    (thenUpcall_book (upcallRecv_book env) _).trans <|
    (thenUpcall_book upcallRxClosed_book _).trans (upcallSent_book env c)
  generalize thenUpcall _ _ = x at h e
  obtain ⟨c', _ | _⟩ := x
  · cases h
  · cases h; exact e

/-- A PCB that comes out of the active path went through `tcp_process` and all the upcalls. -/
theorem tcpInputActive_alive {pcb p' : Pcb} {d : InData} {r : InputResult}
    (h : tcpInputActive cfg env pcb d = some r) (hp : r.pcb = some p') :
    ∃ c err, tcpProcess cfg env
        ⟨{ pcb with isInInput := true }, { d with recvData := [], recvFlags := {} }, []⟩ = some (c, err) ∧
      r = tcpInputUpcalls env c := by
  obtain ⟨⟨c, err⟩, hc, rfl⟩ := Option.map_eq_some'.mp h
  refine ⟨c, err, hc, ?_⟩
  dsimp only at hp ⊢
  split_ifs at hp ⊢
  rfl

/-- What one call of `L3_level_tcp_input` does to the send book of the PCB it leaves: a book
step, or the reuse of a TIME_WAIT PCB for a new connection. -/
theorem tcpInputDispatch_book {pcb p' : Pcb} {d : InData} {r : InputResult}
    (h : tcpInputDispatch cfg env (some pcb) d = some r) (hp : r.pcb = some p') :
    BookStep pcb p' ∨ pcb.state = .timeWait ∧ p' = (tcpPcbReuse cfg env ⟨pcb, d, []⟩).1.pcb := by
  unfold tcpInputDispatch at h
  dsimp only at h
  split_ifs at h with hact hlis htw
  · obtain ⟨c, err, hc, rfl⟩ := tcpInputActive_alive h hp
    have s := (tcpProcess_step hc).book_right (tcpInputUpcalls_book env c hp)
    exact .inl ⟨s.sndNxt_eq, s.advtsdMss_eq, s.bounded, s.credit_eq⟩
  · cases h; cases hp; exact .inl (.of_book rfl)
  · obtain ⟨⟨c, err⟩, hc, rfl⟩ := Option.map_eq_some'.mp h
    cases hp
    rcases tcpTimewaitInput_book hc with e | e
    · exact .inl (.of_book e)
    · exact .inr ⟨htw, e⟩
  · cases h; cases hp; exact .inl (.of_book rfl)

theorem tcpInputDispatch_bounded
    (hrec : ∀ p : Pcb, p.sndScale.toNat ≤ 14 → (env.recycle p).sndScale.toNat ≤ 14)
    {pcb : Option Pcb} {d : InData} {r : InputResult} (hb : ∀ p ∈ pcb, p.sndBook.Bounded)
    (h : tcpInputDispatch cfg env pcb d = some r) : ∀ p ∈ r.pcb, p.sndBook.Bounded := by
  intro p' hp
  cases pcb with
  | none => cases h; cases hp
  | some pcb =>
    rcases tcpInputDispatch_book h hp with hs | ⟨-, rfl⟩
    · exact hs.bounded (hb pcb rfl)
    · exact tcpPcbReuse_bounded (hrec _ (hb pcb rfl).scale_le)

end Input

/-! ## The right edge of the receive window -/

/-- `rcv_nxt + rcv_wnd`: the right edge of the receive window. -/
def Pcb.rcvRight (p : Pcb) : U32 := p.rcvNxt + p.rcvWnd

section RcvRight
variable {cfg : Config} {env : Env} {c c' : Ctx} {err : ErrT}

theorem drainStep_rcvRight (s : TcpSeg) (c : Ctx) : (drainStep s c).pcb.rcvRight = c.pcb.rcvRight :=
  add_add_sub_cancel _ _ _

theorem tcpDrainOoseq_rcvRight (q : List TcpSeg) (c : Ctx) :
    (tcpDrainOoseq q c).pcb.rcvRight = c.pcb.rcvRight := by
  induction q generalizing c with
  | nil => rfl
  | cons s r ih =>
    unfold tcpDrainOoseq
    split
    · exact (ih _).trans (drainStep_rcvRight s c)
    · rfl

/-- A segment accepted at `rcv_nxt` moves `rcv_nxt` up and `rcv_wnd` down by its length. -/
theorem tcpAcceptInSeq_rcvRight (hs : c.pcb.rcvNxt = c.d.seqno) :
    (tcpAcceptInSeq c).pcb.rcvRight = c.pcb.rcvRight := by
  show c.d.seqno + _ + (c.pcb.rcvWnd - _) = c.pcb.rcvNxt + c.pcb.rcvWnd
  rw [hs]
  exact add_add_sub_cancel _ _ _

theorem tcpAckDelivered_rcvRight : (tcpAckDelivered cfg c).pcb.rcvRight = c.pcb.rcvRight := by
  unfold tcpAckDelivered Ctx.ack; split_ifs <;> rfl

theorem tcpTrimLeftEdge_rcvRight (h : tcpTrimLeftEdge c = some c') : c'.pcb.rcvRight = c.pcb.rcvRight := by
  rcases tcpTrimLeftEdge_pcb h with e | e <;> exact e ▸ rfl

theorem tcpReceiveInSeq_rcvRight (hs : c.pcb.rcvNxt = c.d.seqno) (h : tcpReceiveInSeq cfg c = some c') :
    c'.pcb.rcvRight = c.pcb.rcvRight := by
  simp only [tcpReceiveInSeq, Option.bind_eq_bind, Option.bind_eq_some] at h
  obtain ⟨c₁, h₁, c₂, h₂, h₃⟩ := h
  cases h₃
  obtain ⟨e₁, s₁⟩ := tcpTrimToWindow_pcb h₁
  obtain ⟨e₂, s₂⟩ := tcpTrimToOoseq_pcb h₂
  have n₂ : c₂.pcb.rcvNxt = c.pcb.rcvNxt := by rw [e₂, e₁]
  have r₂ : c₂.pcb.rcvRight = c.pcb.rcvRight := by rw [e₂, e₁]; rfl
  exact tcpAckDelivered_rcvRight.trans <| (tcpDrainOoseq_rcvRight _ _).trans <|
    (tcpAcceptInSeq_rcvRight (by rw [n₂, hs, s₂, s₁])).trans r₂

theorem tcpReceiveOoseq_rcvRight (h : tcpReceiveOoseq env c = some c') : c'.pcb.rcvRight = c.pcb.rcvRight := by
  simp only [tcpReceiveOoseq, Option.map_eq_map] at h
  split at h
  · cases h; rfl
  · obtain ⟨_, -, rfl⟩ := Option.map_eq_some'.mp h; rfl

theorem tcpReceiveData_rcvRight (h : tcpReceiveData cfg env c = some c') : c'.pcb.rcvRight = c.pcb.rcvRight := by
  simp only [tcpReceiveData, Option.bind_eq_bind, Option.bind_eq_some] at h
  obtain ⟨c₁, h₁, h₂⟩ := h
  refine Eq.trans ?_ (tcpTrimLeftEdge_rcvRight h₁)
  split_ifs at h₂ with _ hs
  · exact tcpReceiveInSeq_rcvRight hs h₂
  · exact tcpReceiveOoseq_rcvRight h₂
  · cases h₂; rfl

/-- `tcp_receive` keeps the right edge: its ACK half touches neither `rcv_nxt` nor `rcv_wnd`,
and its data half moves both only by the length of what it accepts in sequence. -/
theorem tcpReceive_rcvRight (h : tcpReceive cfg env c = some c') : c'.pcb.rcvRight = c.pcb.rcvRight := by
  unfold tcpReceive at h
  obtain ⟨c₁, h₁, h₂⟩ := Option.bind_eq_some.mp h
  have e₁ : c₁.pcb.rcvRight = c.pcb.rcvRight := by
    split at h₁
    · exact congrArg (fun s : RcvSide => s.rcvNxt + s.rcvWnd) (tcpReceiveAck_frame h₁).2
    · cases h₁; rfl
  refine Eq.trans ?_ e₁
  split_ifs at h₂
  · exact tcpReceiveData_rcvRight h₂
  · cases h₂; rfl
  · cases h₂; rfl

theorem tcpSyncedTransition_rcvRight (st : TcpState) (c : Ctx) :
    (tcpSyncedTransition st c).pcb.rcvRight = c.pcb.rcvRight := by
  unfold tcpSyncedTransition Pcb.purge
  split <;> (try split_ifs) <;> rfl

theorem tcpProcessSynRcvd_rcvRight (h : tcpProcessSynRcvd cfg env c = some (c', err)) :
    c'.pcb.rcvRight = c.pcb.rcvRight := by
  unfold tcpProcessSynRcvd at h
  dsimp only at h
  split_ifs at h
  · cases h; rfl
  · cases h; rfl
  · obtain ⟨c₁, h₁, h⟩ := Option.map_eq_some'.mp h
    cases h
    obtain ⟨c₂, h₂, rfl⟩ := Option.map_eq_some'.mp h₁
    have e := tcpReceive_rcvRight h₂
    dsimp only
    split_ifs <;> exact e
  all_goals cases h; rfl

/-- In every state but SYN_SENT, `tcp_process` keeps the right edge `rcv_nxt + rcv_wnd` of the
receive window: every byte it takes from `rcv_wnd` advances `rcv_nxt` by one, and nothing else
of the call moves either. -/
theorem tcpProcess_rcvRight (hs : c.pcb.state ≠ .synSent) (h : tcpProcess cfg env c = some (c', err)) :
    c'.pcb.rcvRight = c.pcb.rcvRight := by
  unfold tcpProcess at h
  dsimp only at h
  split_ifs at h
  · cases h; rfl
  · cases h; rfl
  · cases h; rfl
  · have hp : (tcpProcessPrepare cfg env c).pcb.rcvRight = c.pcb.rcvRight := by
      have e := congrArg Pcb.rcvRight (tcpParseopt_frame cfg c.d
        { (if c.pcb.flags.rxclosed then c.pcb else { c.pcb with tmr := env.ticks }) with keepCntSent := 0 })
      refine e.trans ?_
      split <;> rfl
    have hs' : (tcpProcessPrepare cfg env c).pcb.state = c.pcb.state := (tcpProcessPrepare_frame cfg env c).2.1
    refine Eq.trans ?_ hp
    unfold tcpProcessState at h
    split at h
    · exact absurd (hs'.symm.trans ‹_›) hs
    · exact tcpProcessSynRcvd_rcvRight h
    all_goals first
      | (cases h; rfl)
      | (obtain ⟨c₁, h₁, h⟩ := Option.map_eq_some'.mp h; cases h
         obtain ⟨c₂, h₂, rfl⟩ := Option.map_eq_some'.mp h₁
         exact (tcpSyncedTransition_rcvRight _ _).trans (tcpReceive_rcvRight h₂))

end RcvRight

/-! ## Whole runs -/

/-- Every PCB a SYN clones on a LISTEN PCB starts within the bounds, whatever the clone held. -/
theorem tcpListenInput_bounded (cfg : Config) (env : Env) (pcb : Pcb) (d : InData) :
    ∀ np ∈ (tcpListenInput cfg env pcb d).1, np.sndBook.Bounded := by
  intro np h
  unfold tcpListenInput at h
  split_ifs at h <;> (try split at h) <;>
    first | (cases h; done) | (cases h; exact synWindows_bounded (by exact Nat.zero_le _) _)

/-- The clone callback hands back a PCB with a jumbo MSS and a window shift out of range. -/
def sampleWildClonePcb : Pcb := { sampleClonePcb with mss := 9000, sndScale := 200 }

def sampleClonedPcb : Pcb :=
  ((tcpListenInput {} { clone := some sampleWildClonePcb } sampleListenPcb sampleSynIn).1).getD sampleWildClonePcb

theorem tcpListenInput_bounded_sample : sampleClonedPcb.sndBook.Bounded :=
  tcpListenInput_bounded {} { clone := some sampleWildClonePcb } sampleListenPcb sampleSynIn _ rfl

example : (sampleClonedPcb.mss, sampleClonedPcb.sndScale) = (536, 0) := by decide

/-- Over every run of `L3_level_tcp_input` on one connection that starts within the bounds, with
collaborators whose PCB recycling keeps a window shift of at most 14, every PCB the run leaves is
within the bounds: the MSS is at most the one we advertised, and the peer's window shift is at
most 14, so that `SND_WND_SCALE` keeps every bit of the 16-bit window. -/
theorem inputRun_sndBook_bounded (cfg : Config) (steps : List (Env × InData))
    (hrec : ∀ e ∈ steps, ∀ p : Pcb, p.sndScale.toNat ≤ 14 → (e.1.recycle p).sndScale.toNat ≤ 14)
    (pcb : Option Pcb) (hb : ∀ p ∈ pcb, p.sndBook.Bounded) (rs : List InputResult)
    (h : inputRun cfg pcb steps = some rs) :
    ∀ r ∈ rs, ∀ p ∈ r.pcb,
      p.sndBook.Bounded ∧ ∀ w, (p.sndWndScale w).toNat = w.toNat * 2 ^ p.sndScale.toNat := by
  induction steps generalizing pcb rs with
  | nil => cases h; intro r hr; cases hr
  | cons e rest ih =>
    simp only [inputRun, Option.bind_eq_bind, Option.bind_eq_some, Option.map_eq_map,
      Option.map_eq_some'] at h
    obtain ⟨r, hr, rs', hrs, rfl⟩ := h
    have hb' := tcpInputDispatch_bounded (hrec e (List.mem_cons_self _ _)) hb hr
    intro r' hr'
    rcases List.mem_cons.mp hr' with rfl | hr'
    · exact fun p hp => ⟨hb' p hp, fun w => Pcb.sndWndScale_toNat (hb' p hp) w⟩
    · exact ih (fun e he => hrec e (List.mem_cons_of_mem _ he)) _ hb' _ hrs r' hr'

/-- The ACK of the hundred bytes in flight. -/
def sampleFlightAckIn : InData := { sampleAckIn with ackno := 600 }

def sampleFlightRun : List InputResult :=
  (inputRun {} (some sampleFlightPcb) [({}, sampleFlightAckIn)]).getD []

def sampleFlightResult : InputResult := sampleFlightRun.headD ⟨none, [], {}, []⟩

theorem inputRun_sndBook_bounded_sample :
    (sampleFlightResult.pcb.getD sampleFlightPcb).sndBook.Bounded ∧
      ((sampleFlightResult.pcb.getD sampleFlightPcb).sndWndScale 0xffff).toNat =
        (0xffff : U16).toNat * 2 ^ (sampleFlightResult.pcb.getD sampleFlightPcb).sndScale.toNat :=
  have hr : sampleFlightRun = [sampleFlightResult] := rfl
  have hp := inputRun_sndBook_bounded {} [({}, sampleFlightAckIn)]
    (fun e he p hp => by rw [List.mem_singleton.mp he]; exact hp) (some sampleFlightPcb)
    (fun p hp => by cases hp; decide) sampleFlightRun rfl sampleFlightResult (hr ▸ List.mem_singleton_self _)
    (sampleFlightResult.pcb.getD sampleFlightPcb) rfl
  ⟨hp.1, hp.2 0xffff⟩

example : (sampleFlightResult.pcb.map fun p => (p.sndBuf, p.lastack)) = some (100, 600) := by decide

end XlioTcp
