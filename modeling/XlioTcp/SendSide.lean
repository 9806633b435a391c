import XlioTcp.Shift

/-! The send half of `tcp_receive`. The data half never writes it and calls nothing but empty
ACKs; the ACK half moves the duplicate-ACK counter, the send window and the RTT estimator.
Over a run of `L3_level_tcp_input` calls on a synchronized connection the counter counts the
streak of duplicates that reach `tcp_receive`, saturating at 255, and fast retransmit fires once
per streak, at its third duplicate. -/
namespace XlioTcp

/-- The send half of a connection: what the ACK half of `tcp_receive` reads and writes. -/
structure SndSide where
  lastack : U32
  sndWnd : U32
  sndWl1 : U32
  sndWl2 : U32
  dupacks : U8
  sa : S16
  sv : S16
  rto : S16
  rttest : U32
  rtseq : U32

def Pcb.sndSide (p : Pcb) : SndSide :=
  ⟨p.lastack, p.sndWnd, p.sndWl1, p.sndWl2, p.dupacks, p.sa, p.sv, p.rto, p.rttest, p.rtseq⟩

/-- `c'` has the send half of `c`, and the only calls it adds are empty ACKs. -/
def SndKeep (c c' : Ctx) : Prop :=
  c'.pcb.sndSide = c.pcb.sndSide ∧ ∃ n, c'.ev = c.ev ++ List.replicate n .sendEmptyAck

namespace SndKeep
variable {c₁ c₂ c₃ : Ctx}

theorem of_eq (hs : c₂.pcb.sndSide = c₁.pcb.sndSide) (he : c₂.ev = c₁.ev) : SndKeep c₁ c₂ :=
  ⟨hs, 0, by simp [he]⟩

theorem refl (c : Ctx) : SndKeep c c := of_eq rfl rfl

theorem trans (h₁ : SndKeep c₁ c₂) (h₂ : SndKeep c₂ c₃) : SndKeep c₁ c₃ := by
  obtain ⟨hs₁, n₁, he₁⟩ := h₁
  obtain ⟨hs₂, n₂, he₂⟩ := h₂
  exact ⟨hs₂.trans hs₁, n₁ + n₂, by rw [he₂, he₁, List.replicate_add, List.append_assoc]⟩

theorem dupacks_eq (h : SndKeep c₁ c₂) : c₂.pcb.dupacks = c₁.pcb.dupacks := congrArg SndSide.dupacks h.1

/-- Empty ACKs are not fast retransmits. -/
theorem mem_rexmitFast (h : SndKeep c₁ c₂) : Event.rexmitFast ∈ c₂.ev ↔ Event.rexmitFast ∈ c₁.ev := by
  obtain ⟨-, n, he⟩ := h
  simp [he, List.mem_replicate]

end SndKeep

section DataHalf
variable {cfg : Config} {env : Env} {c c' : Ctx}

theorem ackNow_keep : SndKeep c c.ackNow := .of_eq rfl rfl
theorem ack_keep : SndKeep c c.ack := by
  unfold Ctx.ack; split <;> exact .of_eq rfl rfl
theorem emptyAck_keep : SndKeep c (c.emit .sendEmptyAck) := ⟨rfl, 1, rfl⟩

theorem tcpTrimLeftEdge_keep (h : tcpTrimLeftEdge c = some c') : SndKeep c c' := by
  simp only [tcpTrimLeftEdge, Option.map_eq_map] at h
  split_ifs at h <;> first
    | (cases h; exact .of_eq rfl rfl)
    | (obtain ⟨_, -, rfl⟩ := Option.map_eq_some'.mp h; exact .of_eq rfl rfl)

theorem tcpTrimToWindow_keep (h : tcpTrimToWindow c = some c') : SndKeep c c' := by
  simp only [tcpTrimToWindow, Option.map_eq_map] at h
  split_ifs at h <;> first
    | (cases h; exact .of_eq rfl rfl)
    | (obtain ⟨_, -, rfl⟩ := Option.map_eq_some'.mp h; exact .of_eq rfl rfl)

theorem tcpTrimToOoseq_keep (h : tcpTrimToOoseq c = some c') : SndKeep c c' := by
  simp only [tcpTrimToOoseq, Option.map_eq_map] at h
  split_ifs at h
  · cases h; exact .of_eq rfl rfl
  · cases h; exact .of_eq rfl rfl
  · split at h
    · split_ifs at h <;> first
        | (cases h; exact .of_eq rfl rfl)
        | (obtain ⟨_, -, rfl⟩ := Option.map_eq_some'.mp h; exact .of_eq rfl rfl)
    · cases h; exact .of_eq rfl rfl

theorem tcpDrainOoseq_keep (q : List TcpSeg) (c : Ctx) : SndKeep c (tcpDrainOoseq q c) := by
  induction q generalizing c with
  | nil => exact .of_eq rfl rfl
  | cons s r ih =>
    unfold tcpDrainOoseq
    split
    · exact (SndKeep.of_eq rfl rfl).trans (ih _)
    · exact .of_eq rfl rfl

theorem tcpAcceptInSeq_keep : SndKeep c (tcpAcceptInSeq c) := .of_eq rfl rfl

theorem tcpAckDelivered_keep : SndKeep c (tcpAckDelivered cfg c) := by
  unfold tcpAckDelivered; split
  · exact ackNow_keep
  · exact ack_keep

theorem tcpReceiveInSeq_keep (h : tcpReceiveInSeq cfg c = some c') : SndKeep c c' := by
  simp only [tcpReceiveInSeq, Option.bind_eq_bind, Option.bind_eq_some] at h
  obtain ⟨c₁, h₁, c₂, h₂, h₃⟩ := h
  cases h₃
  exact ((tcpTrimToWindow_keep h₁).trans (tcpTrimToOoseq_keep h₂)).trans
    (tcpAcceptInSeq_keep.trans ((tcpDrainOoseq_keep _ _).trans tcpAckDelivered_keep))

theorem tcpReceiveOoseq_keep (h : tcpReceiveOoseq env c = some c') : SndKeep c c' := by
  simp only [tcpReceiveOoseq, Option.map_eq_map] at h
  refine emptyAck_keep.trans ?_
  split at h
  · cases h; exact .of_eq rfl rfl
  · obtain ⟨_, -, rfl⟩ := Option.map_eq_some'.mp h; exact .of_eq rfl rfl

/-- The data half of `tcp_receive` leaves the send half alone and calls only for empty ACKs. -/
theorem tcpReceiveData_keep (h : tcpReceiveData cfg env c = some c') : SndKeep c c' := by
  simp only [tcpReceiveData, Option.bind_eq_bind, Option.bind_eq_some] at h
  obtain ⟨c₁, h₁, h₂⟩ := h
  refine (tcpTrimLeftEdge_keep h₁).trans ?_
  split_ifs at h₂
  · exact tcpReceiveInSeq_keep h₂
  · exact tcpReceiveOoseq_keep h₂
  · cases h₂; exact emptyAck_keep

/-- `tcp_receive` is its ACK half followed by a data half that keeps the send side and adds
only empty ACKs. -/
theorem tcpReceive_ackHalf (h : tcpReceive cfg env c = some c') :
    ∃ c₁, (if c.d.flags.ack then tcpReceiveAck cfg env c else some c) = some c₁ ∧ SndKeep c₁ c' := by
  unfold tcpReceive at h
  obtain ⟨c₁, h₁, h₂⟩ := Option.bind_eq_some.mp h
  refine ⟨c₁, h₁, ?_⟩
  split_ifs at h₂
  · exact tcpReceiveData_keep h₂
  · cases h₂; exact .refl _
  · cases h₂; exact ackNow_keep

end DataHalf

section AckFrame
variable {cfg : Config} {c c' : Ctx}

/-- The window update writes the send window and the segment that set it, nothing else of the
send half. -/
theorem tcpWindowUpdate_sndSide (p : Pcb) (d : InData) :
    (tcpWindowUpdate p d).1.sndSide = { p.sndSide with
      sndWnd := (tcpWindowUpdate p d).1.sndWnd, sndWl1 := (tcpWindowUpdate p d).1.sndWl1,
      sndWl2 := (tcpWindowUpdate p d).1.sndWl2 } := by
  unfold tcpWindowUpdate; dsimp only; split_ifs <;> rfl

/-- A duplicate or old ACK moves only `dupacks` of the send side. -/
theorem tcpDupAck_sndSide (e : U32) :
    (tcpDupAck cfg c e).pcb.sndSide = { c.pcb.sndSide with dupacks := (tcpDupAck cfg c e).pcb.dupacks } ∧
      (tcpDupAck cfg c e).d = c.d := by
  unfold tcpDupAck; dsimp only; split_ifs <;> exact ⟨rfl, rfl⟩

/-- An ACK of new data sets `lastack` to `ackno`, clears `dupacks` and resets `rto` to
`(sa >> 3) + sv`; the rest of the send side, the calls and the packet context stay. -/
theorem tcpNewAck_sndSide {p : Bool} (h : tcpNewAck cfg c p = some c') :
    c'.pcb.sndSide = { c.pcb.sndSide with
      lastack := c.d.ackno, dupacks := 0, rto := c.pcb.sa.sshiftRight 3 + c.pcb.sv } ∧
      c'.ev = c.ev ∧ c'.d = c.d := by
  unfold tcpNewAck at h
  dsimp only [Option.bind_eq_bind] at h
  obtain ⟨⟨pcb, q⟩, hq, h⟩ := Option.bind_eq_some.mp h
  cases h
  have e := congrArg Pcb.sndSide (ackPartialOrWholeSegment_frame hq)
  refine ⟨?_, rfl, rfl⟩
  split <;> refine e.trans ?_ <;> split <;> split <;> rfl

/-- The classification of an ACK moves `lastack`, `dupacks` and `rto` only; `rto` is either
kept or reset to `(sa >> 3) + sv`. -/
theorem tcpAckClassify_sndSide {e : U32} {b : Bool} (h : tcpAckClassify cfg c e b = some c') :
    ∃ l k r, c'.pcb.sndSide = { c.pcb.sndSide with lastack := l, dupacks := k, rto := r } ∧
      (r = c.pcb.rto ∨ r = c.pcb.sa.sshiftRight 3 + c.pcb.sv) ∧ c'.d = c.d := by
  unfold tcpAckClassify at h
  split_ifs at h
  · cases h
    exact ⟨_, _, _, (tcpDupAck_sndSide e).1, .inl rfl, (tcpDupAck_sndSide e).2⟩
  · obtain ⟨e, -, hd⟩ := tcpNewAck_sndSide h
    exact ⟨_, _, _, e, .inr rfl, hd⟩
  · cases h; exact ⟨_, _, _, rfl, .inl rfl, rfl⟩

theorem tcpAckUnsent_sndSide (h : tcpAckUnsent c = some c') :
    c'.pcb.sndSide = c.pcb.sndSide ∧ c'.ev = c.ev ∧ c'.d = c.d := by
  obtain ⟨⟨pcb, q⟩, hq, rfl⟩ := Option.map_eq_some'.mp h
  rw [ackPartialOrWholeSegment_frame hq]
  exact ⟨rfl, rfl, rfl⟩

end AckFrame

/-! ## Duplicate ACKs -/

/-- A qualifying duplicate for the connection `p`: an ACK without data, of `lastack` itself,
that leaves the right edge `snd_wl2 + snd_wnd` of the send window where it was, while the
retransmit timer runs (Stevens' clauses 1 to 5). -/
def dupAckQualifies (p : Pcb) (d : InData) : Bool :=
  let w := (tcpWindowUpdate p d).1
  d.flags.ack && (d.tcplen = 0 && w.sndWl2 + w.sndWnd == p.sndWnd + p.sndWl2 &&
    decide (0 ≤ p.rtime.toInt) && p.lastack == d.ackno)

/-- The number of qualifying duplicates since the last reset, after the segment `d`: one more
on a qualifying duplicate; none after an ACK of new data or any other ACK at or below
`lastack`; unchanged otherwise (no ACK, or an ACK beyond `snd_nxt`). -/
def dupStreak (p : Pcb) (d : InData) (s : Nat) : Nat :=
  if dupAckQualifies p d then s + 1
  else if d.flags.ack && (tcpSeqLeq d.ackno p.lastack || tcpSeqBetween d.ackno (p.lastack + 1) p.sndNxt)
  then 0
  else s

/-- The `u8_t` increment of `dupacks` saturates, so it counts `min 255 s`. -/
private theorem dupacks_inc (x : U8) (s : Nat) (hs : x.toNat = min 255 s) :
    (if x + 1 > x then x + 1 else x).toNat = min 255 (s + 1) := by
  split_ifs <;> bv_omega

section AckHalf
variable {cfg : Config} {env : Env} {c c' : Ctx} {s : Nat}

theorem tcpWindowUpdate_keeps (p : Pcb) (d : InData) :
    (tcpWindowUpdate p d).1.dupacks = p.dupacks ∧ (tcpWindowUpdate p d).1.rtime = p.rtime ∧
      (tcpWindowUpdate p d).1.lastack = p.lastack ∧ (tcpWindowUpdate p d).1.sndNxt = p.sndNxt := by
  unfold tcpWindowUpdate; dsimp only; split_ifs <;> exact ⟨rfl, rfl, rfl, rfl⟩

variable (cfg) in
/-- An ACK at or below `lastack`: the third qualifying duplicate calls `tcp_rexmit_fast`, and
any other such ACK clears the counter. -/
theorem tcpDupAck_streak (hack : c.d.flags.ack = true) (hs : c.pcb.dupacks.toNat = min 255 s) :
    let c₁ := tcpDupAck cfg { c with pcb := (tcpWindowUpdate c.pcb c.d).1 } (c.pcb.sndWnd + c.pcb.sndWl2)
    c₁.pcb.dupacks.toNat = (if dupAckQualifies c.pcb c.d then min 255 (s + 1) else 0) ∧
      (Event.rexmitFast ∈ c₁.ev ↔ Event.rexmitFast ∈ c.ev ∨ (dupAckQualifies c.pcb c.d ∧ s + 1 = 3)) := by
  intro c₁
  obtain ⟨hd, hr, hl, -⟩ := tcpWindowUpdate_keeps c.pcb c.d
  have hi := dupacks_inc c.pcb.dupacks s hs
  simp only [c₁, tcpDupAck, dupAckQualifies, hack, Bool.true_and, hd, hr, hl]
  generalize (if c.pcb.dupacks + 1 > c.pcb.dupacks then c.pcb.dupacks + 1 else c.pcb.dupacks) = x at hi ⊢
  split_ifs with hq h₄ h₃
  · -- a fourth or later duplicate only inflates the window
    have : s + 1 ≠ 3 := by bv_omega
    simp only [ccApply, hi, hq, this, and_false, or_false, and_self]
  · -- the third duplicate: fast retransmit
    have : s + 1 = 3 := by bv_omega
    simp only [Ctx.emit, ccApply, hi, hq, this, List.mem_append, List.mem_singleton, and_self, or_true, true_and]
  · have : s + 1 ≠ 3 := by bv_omega
    simp only [hi, hq, this, and_false, or_false, and_self]
  · simp only [hq, Bool.false_eq_true, false_and, or_false, iff_self, and_true]
    rfl

theorem tcpNewAck_dupacks {p : Bool} (h : tcpNewAck cfg c p = some c') :
    c'.pcb.dupacks = 0 ∧ c'.ev = c.ev :=
  ⟨congrArg SndSide.dupacks (tcpNewAck_sndSide h).1, (tcpNewAck_sndSide h).2.1⟩

theorem tcpAckUnsent_keeps (h : tcpAckUnsent c = some c') : c'.pcb.dupacks = c.pcb.dupacks ∧ c'.ev = c.ev := by
  obtain ⟨⟨pcb, q⟩, hq, rfl⟩ := Option.map_eq_some'.mp h
  rw [ackPartialOrWholeSegment_frame hq]
  exact ⟨rfl, rfl⟩

theorem tcpRttSample_keeps (env : Env) (c : Ctx) :
    (tcpRttSample env c).pcb.dupacks = c.pcb.dupacks ∧ (tcpRttSample env c).ev = c.ev := by
  unfold tcpRttSample; dsimp only; split_ifs <;> exact ⟨rfl, rfl⟩

theorem dupAckQualifies_leq {p : Pcb} {d : InData} (h : dupAckQualifies p d = true) :
    tcpSeqLeq d.ackno p.lastack = true := by
  simp only [dupAckQualifies, Bool.and_eq_true, beq_iff_eq] at h
  simp [h.2.2, tcpSeqLeq]

/-- One ACK through the ACK half of `tcp_receive`: the counter follows the streak, and the
call retransmits exactly when it brings the streak to three. -/
theorem tcpReceiveAck_streak (hack : c.d.flags.ack = true) (h : tcpReceiveAck cfg env c = some c')
    (hs : c.pcb.dupacks.toNat = min 255 s) :
    c'.pcb.dupacks.toNat = min 255 (dupStreak c.pcb c.d s) ∧
      (Event.rexmitFast ∈ c'.ev ↔
        Event.rexmitFast ∈ c.ev ∨ (dupAckQualifies c.pcb c.d ∧ dupStreak c.pcb c.d s = 3)) := by
  simp only [tcpReceiveAck, Option.bind_eq_bind, Option.bind_eq_some, Option.some.injEq] at h
  obtain ⟨c₁, h₁, c₂, h₂, rfl⟩ := h
  obtain ⟨hu, hue⟩ := tcpAckUnsent_keeps h₂
  obtain ⟨hr, hre⟩ := tcpRttSample_keeps env c₂
  rw [hr, hre, hu, hue]
  obtain ⟨hd, -, hl, hn⟩ := tcpWindowUpdate_keeps c.pcb c.d
  unfold tcpAckClassify at h₁
  simp only [hl, hn] at h₁
  split_ifs at h₁ with hleq hbtw
  · -- an ACK at or below `lastack`
    cases h₁
    obtain ⟨h1, h2⟩ := tcpDupAck_streak cfg hack hs
    by_cases hq : dupAckQualifies c.pcb c.d = true
    · simp only [dupStreak, hq, if_true] at h1 h2 ⊢
      exact ⟨h1, h2⟩
    · simp only [dupStreak, hq, hack, hleq, Bool.false_eq_true, if_false, Bool.true_or, Bool.and_self,
        if_true] at h1 h2 ⊢
      exact ⟨h1, by simpa using h2⟩
  · -- an ACK of new data
    obtain ⟨h1, h2⟩ := tcpNewAck_dupacks h₁
    have hq : dupAckQualifies c.pcb c.d = false := by
      by_contra hq
      exact hleq (dupAckQualifies_leq (Bool.not_eq_false _ ▸ hq))
    simp only [dupStreak, hq, hack, hbtw, Bool.false_eq_true, if_false, Bool.or_true, Bool.and_self,
      if_true, h1, h2]
    simp
  · -- an ACK beyond `snd_nxt`
    cases h₁
    have hq : dupAckQualifies c.pcb c.d = false := by
      by_contra hq
      exact hleq (dupAckQualifies_leq (Bool.not_eq_false _ ▸ hq))
    simp only [Bool.not_eq_true] at hleq hbtw
    simp only [dupStreak, hq, hleq, hbtw, Bool.false_eq_true, if_false, Bool.or_false, Bool.and_false]
    simp [Ctx.emit, hd, hs]

/-- One call of `tcp_receive`: the data half keeps the counter and calls no retransmit. -/
theorem tcpReceive_streak (h : tcpReceive cfg env c = some c') (hs : c.pcb.dupacks.toNat = min 255 s) :
    c'.pcb.dupacks.toNat = min 255 (dupStreak c.pcb c.d s) ∧
      (Event.rexmitFast ∈ c'.ev ↔
        Event.rexmitFast ∈ c.ev ∨ (dupAckQualifies c.pcb c.d ∧ dupStreak c.pcb c.d s = 3)) := by
  obtain ⟨c₁, h₁, hk⟩ := tcpReceive_ackHalf h
  rw [hk.dupacks_eq, hk.mem_rexmitFast]
  split at h₁
  · exact tcpReceiveAck_streak ‹_› h₁ hs
  · cases h₁
    have hq : dupAckQualifies c.pcb c.d = false := by simp [dupAckQualifies, *]
    simp [dupStreak, hq, *]

end AckHalf

/-! ## Duplicate ACKs over a run of `L3_level_tcp_input` -/

/-- The states in which `tcp_process` hands every segment without RST or SYN to `tcp_receive`:
ESTABLISHED to LAST_ACK. -/
def TcpState.isSynced : TcpState → Bool
  | .established | .closeWait | .finWait1 | .finWait2 | .closing | .lastAck => true
  | _ => false

theorem TcpState.isActive_of_isSynced {st : TcpState} : st.isSynced = true → st.isActive = true := by
  cases st <;> decide

/-- A qualifying duplicate that reaches `tcp_receive`: `tcp_process` returns before it on a RST,
acceptable or not, and on a SYN in a synchronized state. -/
def dupAckCounts (p : Pcb) (d : InData) : Bool := !(d.flags.rst || d.flags.syn) && dupAckQualifies p d

/-- One call on a synchronized connection `p`, as the streak sees it: whether the segment counts,
and the streak after it. A RST or a SYN leaves the streak as it was. -/
def dupAckStep (p : Pcb) (d : InData) (s : Nat) : Bool × Nat :=
  (dupAckCounts p d, if d.flags.rst || d.flags.syn then s else dupStreak p d s)

section InputPath
variable {cfg : Config} {env : Env} {c c' : Ctx} {err : ErrT} {s : Nat}

/-- The duplicate-ACK test does not read the fields `tcp_process` writes before `tcp_receive`. -/
theorem dupAck_update (p : Pcb) (d : InData) (s : Nat) (a : U32) (b : U8) (t : U32) (e : Bool) :
    dupAckQualifies { p with tmr := a, keepCntSent := b, tsRecent := t, isInInput := e } d = dupAckQualifies p d ∧
      dupStreak { p with tmr := a, keepCntSent := b, tsRecent := t, isInInput := e } d s = dupStreak p d s := by
  have hw : tcpWindowUpdate { p with tmr := a, keepCntSent := b, tsRecent := t, isInInput := e } d =
      ({ (tcpWindowUpdate p d).1 with tmr := a, keepCntSent := b, tsRecent := t, isInInput := e },
        (tcpWindowUpdate p d).2) := by
    unfold tcpWindowUpdate Pcb.sndWndScale; dsimp only; split_ifs <;> rfl
  simp only [dupStreak, dupAckQualifies, hw, and_self]

theorem tcpSyncedTransition_ev (st : TcpState) (c : Ctx) : (tcpSyncedTransition st c).ev = c.ev := by
  cases st <;> simp only [tcpSyncedTransition] <;> (try split_ifs) <;> rfl

theorem tcpSyncedTransition_dupacks (st : TcpState) (c : Ctx) :
    (tcpSyncedTransition st c).pcb.dupacks = c.pcb.dupacks := by
  unfold tcpSyncedTransition Pcb.purge
  cases st <;> dsimp only <;> split_ifs <;> rfl

theorem tcpProcessPrepare_of_not_syn (hs : c.d.flags.syn = false) :
    tcpProcessPrepare cfg env c = { c with pcb := { c.pcb with
      tmr := if c.pcb.flags.rxclosed then c.pcb.tmr else env.ticks, keepCntSent := 0,
      tsRecent := (tcpProcessPrepare cfg env c).pcb.tsRecent } } := by
  unfold tcpProcessPrepare
  dsimp only
  rw [tcpParseopt_of_not_syn cfg c.d _ hs]
  split_ifs <;> rfl

theorem tcpProcessState_of_synced (hs : c.pcb.state.isSynced = true) :
    tcpProcessState cfg env c = (·, .ok) <$> tcpProcessSynced cfg env c := by
  unfold tcpProcessState
  cases h : c.pcb.state <;> simp_all [TcpState.isSynced]

/-- In a synchronized state, a segment without RST or SYN goes through `tcp_receive`, then the
state move. -/
theorem tcpProcess_of_synced (hsync : c.pcb.state.isSynced = true) (hr : c.d.flags.rst = false)
    (hs : c.d.flags.syn = false) :
    tcpProcess cfg env c =
      (fun c' => (tcpSyncedTransition c.pcb.state c', .ok)) <$> tcpReceive cfg env (tcpProcessPrepare cfg env c) := by
  have hst := (tcpProcessPrepare_frame cfg env c).2.1
  unfold tcpProcess
  simp only [hr, hs, Bool.false_eq_true, if_false, Bool.false_and]
  rw [tcpProcessState_of_synced (hst ▸ hsync), tcpProcessSynced, hst]
  cases tcpReceive cfg env (tcpProcessPrepare cfg env c) <;> rfl

/-- One call of `tcp_process` on a synchronized connection, with no call made yet: `dupacks`
follows the streak, and `tcp_rexmit_fast` is called exactly at a counted third duplicate. -/
theorem tcpProcess_streak (hsync : c.pcb.state.isSynced = true) (hev : c.ev = [])
    (hs : c.pcb.dupacks.toNat = min 255 s) (h : tcpProcess cfg env c = some (c', err)) :
    c'.pcb.dupacks.toNat = min 255 (dupAckStep c.pcb c.d s).2 ∧
      (Event.rexmitFast ∈ c'.ev ↔ (dupAckStep c.pcb c.d s).1 = true ∧ (dupAckStep c.pcb c.d s).2 = 3) := by
  by_cases hrs : (c.d.flags.rst || c.d.flags.syn) = true
  · -- `tcp_process` returns before `tcp_receive`
    have hn : c.pcb.state ≠ .synSent ∧ c.pcb.state ≠ .synRcvd :=
      ⟨fun e => by simp [e, TcpState.isSynced] at hsync, fun e => by simp [e, TcpState.isSynced] at hsync⟩
    have hc : c'.pcb.dupacks = c.pcb.dupacks ∧ c'.ev = c.ev := by
      unfold tcpProcess at h
      dsimp only at h
      split_ifs at h <;> first | (cases h; exact ⟨rfl, rfl⟩) | simp_all
    simp [dupAckStep, dupAckCounts, hrs, hc, hev, hs]
  · -- the segment reaches `tcp_receive`
    simp only [Bool.not_eq_true, Bool.or_eq_false_iff] at hrs
    rw [tcpProcess_of_synced hsync hrs.1 hrs.2] at h
    obtain ⟨c₂, hrecv, he⟩ := Option.map_eq_some'.mp h
    cases he
    have hp : tcpProcessPrepare cfg env c = _ := tcpProcessPrepare_of_not_syn hrs.2
    rw [hp] at hrecv
    obtain ⟨hq, hk⟩ := dupAck_update c.pcb c.d s _ 0 _ c.pcb.isInInput
    obtain ⟨h1, h2⟩ := tcpReceive_streak hrecv hs
    simp only [dupAckStep, dupAckCounts, hrs, Bool.or_false, Bool.not_false, Bool.true_and, if_false,
      Bool.false_eq_true, tcpSyncedTransition_dupacks, tcpSyncedTransition_ev, hev, List.not_mem_nil, false_or] at h1 h2 ⊢
    rw [hq, hk] at h2
    rw [hk] at h1
    exact ⟨h1, h2⟩

/-- What the upcalls must leave alone for the streak: `dupacks`, and whether a fast retransmit
was called. -/
def dupView (c : Ctx) : U8 × Bool := (c.pcb.dupacks, decide (Event.rexmitFast ∈ c.ev))

theorem upcallSent_dupView (env : Env) (c : Ctx) : dupView (upcallSent env c).1 = dupView c := by
  unfold upcallSent; split <;> simp [dupView, Ctx.emit]

theorem upcallRxClosed_dupView (c : Ctx) : dupView (upcallRxClosed c).1 = dupView c := by
  unfold upcallRxClosed; split <;> simp [dupView, Ctx.emit]

theorem upcallRecv_dupView (env : Env) (c : Ctx) : dupView (upcallRecv env c).1 = dupView c := by
  unfold upcallRecv; dsimp only; split_ifs <;> simp [dupView, Ctx.emit]

theorem upcallClosed_dupView (env : Env) (c : Ctx) : dupView (upcallClosed env c).1 = dupView c := by
  unfold upcallClosed; dsimp only; split_ifs <;> simp [dupView, Ctx.emit]

/-- The upcalls keep `dupacks` and call no retransmit. -/
theorem tcpInputUpcalls_dupacks (c : Ctx) :
    (∀ p, (tcpInputUpcalls env c).pcb = some p → p.dupacks = c.pcb.dupacks) ∧
      (Event.rexmitFast ∈ (tcpInputUpcalls env c).ev ↔ Event.rexmitFast ∈ c.ev) := by
  unfold tcpInputUpcalls
  have h := (thenUpcall_view (upcallClosed_dupView env) _).trans <|
    (thenUpcall_view (upcallRecv_dupView env) _).trans <|
    (thenUpcall_view upcallRxClosed_dupView _).trans (upcallSent_dupView env c)
  generalize thenUpcall _ _ = x at h ⊢
  obtain ⟨c', _ | _⟩ := x <;> simp only [dupView, Prod.mk.injEq, decide_eq_decide] at h
  · exact ⟨(fun p hp => by cases hp), h.2⟩
  · exact ⟨fun p hp => by cases hp; exact h.1, by simp [h.2]⟩

theorem tcpInputActive_dupacks {pcb : Pcb} {d : InData} {r : InputResult} (h : tcpInputActive cfg env pcb d = some r) :
    ∃ c err, tcpProcess cfg env ⟨{ pcb with isInInput := true }, { d with recvData := [], recvFlags := {} }, []⟩ =
        some (c, err) ∧
      (∀ p, r.pcb = some p → p.dupacks = c.pcb.dupacks) ∧ (Event.rexmitFast ∈ r.ev ↔ Event.rexmitFast ∈ c.ev) := by
  obtain ⟨⟨c, err⟩, hp, rfl⟩ := Option.map_eq_some'.mp h
  refine ⟨c, err, hp, ?_⟩
  dsimp only
  split_ifs
  · exact ⟨(fun p hp => by cases hp), Iff.rfl⟩
  · exact ⟨(fun p hp => by cases hp), by simp⟩
  · exact ⟨(fun p hp => by cases hp), by simp⟩
  · exact tcpInputUpcalls_dupacks c

/-- One call of `L3_level_tcp_input` on a synchronized connection. -/
theorem tcpInputDispatch_streak {p : Pcb} {d : InData} {r : InputResult} (hsync : p.state.isSynced = true)
    (hs : p.dupacks.toNat = min 255 s) (h : tcpInputDispatch cfg env (some p) d = some r) :
    (∀ q, r.pcb = some q → q.dupacks.toNat = min 255 (dupAckStep p d s).2) ∧
      (Event.rexmitFast ∈ r.ev ↔ (dupAckStep p d s).1 = true ∧ (dupAckStep p d s).2 = 3) := by
  simp only [tcpInputDispatch, TcpState.isActive_of_isSynced hsync, if_true] at h
  obtain ⟨c, err, hp, hd, he⟩ := tcpInputActive_dupacks h
  obtain ⟨h1, h2⟩ := tcpProcess_streak hsync rfl hs hp
  have hstep : dupAckStep { p with isInInput := true } { d with recvData := [], recvFlags := {} } s =
      dupAckStep p d s := by
    obtain ⟨hq, hk⟩ := dupAck_update p d s p.tmr p.keepCntSent p.tsRecent true
    simp only [dupAckStep, dupAckCounts]
    exact congrArg₂ Prod.mk (congrArg _ hq) (by split <;> [rfl; exact hk])
  rw [hstep] at h1 h2
  exact ⟨fun q hq => hd q hq ▸ h1, he.trans h2⟩

theorem ackPartialOrWholeSegment_isSome_of_head {pcb : Pcb} {ackno : U32} {q : List TcpSeg}
    (h : ∀ seg ∈ q.head?, tcpSeqGt ackno seg.seqno = false) : (ackPartialOrWholeSegment pcb ackno q).isSome := by
  cases q with
  | nil => rfl
  | cons seg rest => simp [ackPartialOrWholeSegment, h seg rfl]

/-- `tcp_receive` returns on a qualifying duplicate, unless the first unsent segment starts
before `lastack`. -/
theorem tcpReceive_dupAck_isSome (hq : dupAckQualifies c.pcb c.d = true)
    (hu : ∀ seg ∈ c.pcb.unsent.head?, tcpSeqGt c.pcb.lastack seg.seqno = false) :
    (tcpReceive cfg env c).isSome := by
  have hq' := hq
  simp only [dupAckQualifies, Bool.and_eq_true, beq_iff_eq, decide_eq_true_eq] at hq'
  obtain ⟨hack, ⟨⟨ht, -⟩, -⟩, hl⟩ := hq'
  obtain ⟨-, -, hwl, -⟩ := tcpWindowUpdate_keeps c.pcb c.d
  have hwu : (tcpWindowUpdate c.pcb c.d).1.unsent = c.pcb.unsent := by
    unfold tcpWindowUpdate; dsimp only; split_ifs <;> rfl
  have hdu : ∀ c₁ e, (tcpDupAck cfg c₁ e).pcb.unsent = c₁.pcb.unsent ∧ (tcpDupAck cfg c₁ e).d = c₁.d := by
    intro c₁ e; unfold tcpDupAck; dsimp only; split_ifs <;> exact ⟨rfl, rfl⟩
  obtain ⟨c₂, h₂⟩ : ∃ c₂, tcpAckUnsent (tcpDupAck cfg { c with pcb := (tcpWindowUpdate c.pcb c.d).1 }
      (c.pcb.sndWnd + c.pcb.sndWl2)) = some c₂ := by
    refine Option.isSome_iff_exists.mp ?_
    simp only [tcpAckUnsent, Option.map_eq_map, Option.isSome_map']
    refine ackPartialOrWholeSegment_isSome_of_head ?_
    rw [(hdu _ _).1, (hdu _ _).2, hwu]
    exact hl ▸ hu
  have hd : (tcpRttSample env c₂).d.tcplen = 0 := by
    rw [tcpRttSample_frame.1, (tcpAckUnsent_frame h₂).1, (hdu _ _).2, ht]
  have hc : tcpAckClassify cfg { c with pcb := (tcpWindowUpdate c.pcb c.d).1 } (c.pcb.sndWnd + c.pcb.sndWl2)
      (tcpWindowUpdate c.pcb c.d).2 = some (tcpDupAck cfg { c with pcb := (tcpWindowUpdate c.pcb c.d).1 }
      (c.pcb.sndWnd + c.pcb.sndWl2)) := if_pos (hwl ▸ dupAckQualifies_leq hq)
  simp only [tcpReceive, hack, if_true, tcpReceiveAck, hc, Option.bind_eq_bind, Option.some_bind, h₂, hd,
    gt_iff_lt, BitVec.lt_irrefl, decide_False, Bool.false_and, Bool.false_eq_true, if_false]
  split_ifs <;> rfl

end InputPath

/-- A run of `L3_level_tcp_input` calls, as `inputRun` makes it, beside the duplicate-ACK streak:
per call, its result, whether its segment counts, and the streak after it. It follows the
connection while each call finds it in a synchronized state. -/
def dupAckRun (cfg : Config) : Option Pcb → List (Env × InData) → Nat → Option (List (InputResult × Bool × Nat))
  | some p, (env, d) :: rest, s =>
    if p.state.isSynced then
      (tcpInputDispatch cfg env (some p) d).bind fun r =>
        ((r, dupAckStep p d s) :: ·) <$> dupAckRun cfg r.pcb rest (dupAckStep p d s).2
    else some []
  | _, _, _ => some []

/-- Fast retransmit fires once per duplicate-ACK streak. Over every run of calls that each find
the connection in a synchronized state, `dupacks` is the streak of counted duplicates since the
last reset, saturated at 255, and a call calls `tcp_rexmit_fast` exactly when its segment is the
streak's third; and a counted duplicate never crashes the call. -/
theorem fast_retransmit_once_per_streak (cfg : Config) :
    (∀ (steps : List (Env × InData)) (p : Pcb) (s : Nat) (rs : List InputResult),
      p.state.isSynced = true → p.dupacks.toNat = min 255 s → inputRun cfg (some p) steps = some rs →
      (∀ r ∈ rs.dropLast, r.pcb.any (·.state.isSynced) = true) →
      ∃ xs, dupAckRun cfg (some p) steps s = some xs ∧ xs.map Prod.fst = rs ∧
        ∀ x ∈ xs, (∀ q, x.1.pcb = some q → q.dupacks.toNat = min 255 x.2.2) ∧
          (Event.rexmitFast ∈ x.1.ev ↔ x.2.1 = true ∧ x.2.2 = 3)) ∧
    ∀ (env : Env) (p : Pcb) (d : InData), p.state.isSynced = true → dupAckCounts p d = true →
      (∀ seg ∈ p.unsent.head?, tcpSeqGt p.lastack seg.seqno = false) →
      (tcpInputDispatch cfg env (some p) d).isSome := by
  refine ⟨fun steps => ?_, fun env p d hsync hq hu => ?_⟩
  · induction steps with
    | nil =>
      intro p s rs _ _ hrun _
      cases hrun
      exact ⟨[], rfl, rfl, by simp⟩
    | cons seg rest ih =>
      obtain ⟨env, d⟩ := seg
      intro p s rs hp h0 hrun hsync
      obtain ⟨r, hr, hrest⟩ := Option.bind_eq_some.mp hrun
      obtain ⟨rs', hrs', rfl⟩ := Option.map_eq_some'.mp hrest
      obtain ⟨h1, h2⟩ := tcpInputDispatch_streak hp h0 hr
      obtain ⟨xs', hxs', hmap, hall⟩ : ∃ xs', dupAckRun cfg r.pcb rest (dupAckStep p d s).2 = some xs' ∧
          xs'.map Prod.fst = rs' ∧ ∀ x ∈ xs', (∀ q, x.1.pcb = some q → q.dupacks.toNat = min 255 x.2.2) ∧
            (Event.rexmitFast ∈ x.1.ev ↔ x.2.1 = true ∧ x.2.2 = 3) := by
        cases rest with
        | nil => cases hrs'; exact ⟨[], by cases r.pcb <;> rfl, rfl, by simp⟩
        | cons seg' rest' =>
          obtain ⟨a, t, rfl⟩ : ∃ a t, rs' = a :: t := by
            obtain ⟨_, -, h⟩ := Option.bind_eq_some.mp hrs'
            obtain ⟨_, -, h⟩ := Option.map_eq_some'.mp h
            exact ⟨_, _, h.symm⟩
          have hr₁ := hsync r (by simp)
          cases hq : r.pcb with
          | none => rw [hq] at hr₁; cases hr₁
          | some q =>
            rw [hq] at hrs' hr₁
            exact ih q _ _ hr₁ (h1 q hq) hrs' fun x hx => hsync x (by simp [List.dropLast_cons₂, hx])
      refine ⟨(r, dupAckStep p d s) :: xs', ?_, by simp [hmap], ?_⟩
      · simp [dupAckRun, hp, hr, hxs']
      · rintro x (_ | ⟨_, hx⟩)
        · exact ⟨h1, h2⟩
        · exact hall x hx
  · simp only [dupAckCounts, Bool.and_eq_true, Bool.not_eq_true', Bool.or_eq_false_iff] at hq
    simp only [tcpInputDispatch, TcpState.isActive_of_isSynced hsync, if_true, tcpInputActive,
      Option.map_eq_map, Option.isSome_map']
    rw [tcpProcess_of_synced, Option.map_eq_map, Option.isSome_map', tcpProcessPrepare_of_not_syn]
    · exact tcpReceive_dupAck_isSome ((dupAck_update p d 0 _ 0 _ true).1.trans hq.2) hu
    all_goals first | exact hsync | exact hq.1.1 | exact hq.1.2

/-- Four pure ACKs of everything sent: the first opens the window, the next three are
duplicates. -/
def sampleDupAcks : List (Env × InData) := List.replicate 4 ({}, sampleAckIn)

/-- The connection after the first of them: `sampleAckIn` is now a duplicate. -/
def sampleDupPcb : Pcb := { sampleEstPcb with sndWnd := 1000, sndWndMax := 1000, sndWl1 := 1000, sndWl2 := 500 }

theorem fast_retransmit_once_per_streak_sample :
    (∃ xs, dupAckRun {} (some sampleEstPcb) sampleDupAcks 0 = some xs ∧
      xs.map Prod.fst = (inputRun {} (some sampleEstPcb) sampleDupAcks).getD [] ∧
      ∀ x ∈ xs, (∀ q, x.1.pcb = some q → q.dupacks.toNat = min 255 x.2.2) ∧
        (Event.rexmitFast ∈ x.1.ev ↔ x.2.1 = true ∧ x.2.2 = 3)) ∧
    (tcpInputDispatch {} {} (some sampleDupPcb) sampleAckIn).isSome :=
  ⟨(fast_retransmit_once_per_streak {}).1 sampleDupAcks sampleEstPcb 0 _ rfl (by decide) rfl (by decide),
    (fast_retransmit_once_per_streak {}).2 {} sampleDupPcb sampleAckIn rfl (by decide) (by decide)⟩

example : (dupAckRun {} (some sampleEstPcb) sampleDupAcks 0).map
    (·.map fun x => (x.2.2, decide (Event.rexmitFast ∈ x.1.ev))) = some [(0, false), (1, false), (2, false), (3, true)] := by
  decide

/-- A duplicate of `lastack` carrying a RST outside the receive window. -/
def sampleRstAckIn : InData :=
  let h := { sampleAckIn.tcphdr with seqno := 2000, flags := { ack := true, rst := true } }
  { sampleAckIn with tcphdr := h, seqno := 2000, flags := h.flags }

/-- The window-opening ACK and four duplicates, the third of them with an unacceptable RST. -/
def sampleRstDupAcks : List (Env × InData) :=
  [({}, sampleAckIn), ({}, sampleAckIn), ({}, sampleAckIn), ({}, sampleRstAckIn), ({}, sampleAckIn)]

/-- The RST segment meets Stevens' clauses on the connection it reaches, yet `tcp_process`
drops it before `tcp_receive`: `dupacks` stays at 2 and the fast retransmit comes one
duplicate later. -/
theorem rst_duplicate_skips_count :
    (inputRunPcb {} (some sampleEstPcb) (sampleRstDupAcks.take 3)).map (·.any (dupAckQualifies · sampleRstAckIn)) =
      some true ∧
    (inputRun {} (some sampleEstPcb) sampleRstDupAcks).map
        (·.map fun r => (r.pcb.map Pcb.dupacks, decide (Event.rexmitFast ∈ r.ev))) =
      some [(some 0, false), (some 1, false), (some 2, false), (some 2, false), (some 3, true)] :=
  ⟨by decide, by decide⟩

/-! ## The send window -/

section Window
variable {cfg : Config} {env : Env} {c c' : Ctx}

theorem tcpRttSample_window (env : Env) (c : Ctx) :
    (tcpRttSample env c).pcb.sndWnd = c.pcb.sndWnd ∧ (tcpRttSample env c).pcb.sndWl1 = c.pcb.sndWl1 ∧
      (tcpRttSample env c).pcb.sndWl2 = c.pcb.sndWl2 := by
  unfold tcpRttSample; dsimp only; split_ifs <;> exact ⟨rfl, rfl, rfl⟩

/-- The window update: RFC 793's rule on `snd_wl1` and `snd_wl2`, and lwIP's third clause, a
segment acknowledging `snd_wl2` again with a larger window. -/
theorem tcpWindowUpdate_cases (p : Pcb) (d : InData) :
    ((tcpWindowUpdate p d).1.sndWnd = p.sndWnd ∧ (tcpWindowUpdate p d).1.sndWl1 = p.sndWl1 ∧
        (tcpWindowUpdate p d).1.sndWl2 = p.sndWl2) ∨
      ((tcpWindowUpdate p d).1.sndWl1 = d.seqno ∧ (tcpWindowUpdate p d).1.sndWl2 = d.ackno ∧
        (tcpWindowUpdate p d).1.sndWnd = p.sndWndScale d.tcphdr.wnd ∧
        (tcpSeqLt p.sndWl1 d.seqno = true ∨ (p.sndWl1 = d.seqno ∧ tcpSeqLt p.sndWl2 d.ackno = true) ∨
          (p.sndWl2 = d.ackno ∧ p.sndWnd < (tcpWindowUpdate p d).1.sndWnd))) := by
  unfold tcpWindowUpdate
  by_cases hu : (tcpSeqLt p.sndWl1 d.seqno || (p.sndWl1 == d.seqno && tcpSeqLt p.sndWl2 d.ackno) ||
      (p.sndWl2 == d.ackno && p.sndWndScale d.tcphdr.wnd > p.sndWnd)) = true
  · rw [if_pos hu]
    simp only [Bool.or_eq_true, Bool.and_eq_true, beq_iff_eq, decide_eq_true_eq] at hu
    exact .inr ⟨rfl, rfl, rfl, by rcases hu with (hu | hu) | hu <;> simp [hu]⟩
  · rw [if_neg hu]
    exact .inl ⟨rfl, rfl, rfl⟩

/-- After the ACK half the send window is the one the window update left. -/
theorem tcpReceiveAck_window (h : tcpReceiveAck cfg env c = some c') :
    c'.pcb.sndWnd = (tcpWindowUpdate c.pcb c.d).1.sndWnd ∧ c'.pcb.sndWl1 = (tcpWindowUpdate c.pcb c.d).1.sndWl1 ∧
      c'.pcb.sndWl2 = (tcpWindowUpdate c.pcb c.d).1.sndWl2 := by
  simp only [tcpReceiveAck, Option.bind_eq_bind, Option.bind_eq_some, Option.some.injEq] at h
  obtain ⟨c₁, h₁, c₂, h₂, rfl⟩ := h
  obtain ⟨_, _, _, h₁, -⟩ := tcpAckClassify_sndSide h₁
  have h₂ := (tcpAckUnsent_sndSide h₂).1
  obtain ⟨r₁, r₂, r₃⟩ := tcpRttSample_window env c₂
  rw [r₁, r₂, r₃]
  exact ⟨congrArg SndSide.sndWnd (h₂.trans h₁), congrArg SndSide.sndWl1 (h₂.trans h₁),
    congrArg SndSide.sndWl2 (h₂.trans h₁)⟩

/-- Every change of the send window in `tcp_receive` is a window update from the segment, which
is newer by the RFC 793 rule (`snd_wl1 < seqno`, or `snd_wl1 = seqno` and `snd_wl2 < ackno`)
or acknowledges `snd_wl2` again with a larger window. Only the last kind can move `snd_wl1`
back, and it always enlarges `snd_wnd`. -/
theorem window_update_source (h : tcpReceive cfg env c = some c') :
    (c'.pcb.sndWnd = c.pcb.sndWnd ∧ c'.pcb.sndWl1 = c.pcb.sndWl1 ∧ c'.pcb.sndWl2 = c.pcb.sndWl2) ∨
    (c.d.flags.ack = true ∧ c'.pcb.sndWl1 = c.d.seqno ∧ c'.pcb.sndWl2 = c.d.ackno ∧
      c'.pcb.sndWnd = c.pcb.sndWndScale c.d.tcphdr.wnd ∧
      (tcpSeqLt c.pcb.sndWl1 c.d.seqno = true ∨
        (c.pcb.sndWl1 = c.d.seqno ∧ tcpSeqLt c.pcb.sndWl2 c.d.ackno = true) ∨
        (c.pcb.sndWl2 = c.d.ackno ∧ c.pcb.sndWnd < c'.pcb.sndWnd))) := by
  obtain ⟨c₁, h₁, hk⟩ := tcpReceive_ackHalf h
  obtain ⟨e₁, e₂, e₃⟩ : c'.pcb.sndWnd = c₁.pcb.sndWnd ∧ c'.pcb.sndWl1 = c₁.pcb.sndWl1 ∧
      c'.pcb.sndWl2 = c₁.pcb.sndWl2 :=
    ⟨congrArg SndSide.sndWnd hk.1, congrArg SndSide.sndWl1 hk.1, congrArg SndSide.sndWl2 hk.1⟩
  rw [e₁, e₂, e₃]
  split at h₁
  · rename_i hack
    obtain ⟨w₁, w₂, w₃⟩ := tcpReceiveAck_window h₁
    rw [w₁, w₂, w₃]
    rcases tcpWindowUpdate_cases c.pcb c.d with hw | ⟨h1, h2, h3, h4⟩
    · exact .inl hw
    · exact .inr ⟨hack, h1, h2, h3, h4⟩
  · cases h₁; exact .inl ⟨rfl, rfl, rfl⟩

end Window

/-- An established connection whose send window of 100 bytes was set by the peer's segment
2000, acknowledging 500. -/
def sampleWndPcb : Pcb := { sampleEstPcb with sndWnd := 100, sndWl1 := 2000, sndWl2 := 500 }

/-- A reordered older segment of the peer: sequence number 1500, acknowledging 500 again, with a
window of 1000. -/
def sampleOldWndIn : InData :=
  let h := { sampleAckIn.tcphdr with seqno := 1500, wnd := 1000 }
  { sampleAckIn with tcphdr := h, seqno := 1500, inseg := { sampleAckIn.inseg with tcphdr := h, seqno := 1500 } }

def sampleOldWndResult : Ctx :=
  (tcpReceive {} {} ⟨sampleWndPcb, sampleOldWndIn, []⟩).getD ⟨sampleWndPcb, sampleOldWndIn, []⟩

theorem window_update_source_sample :
    tcpReceive {} {} ⟨sampleWndPcb, sampleOldWndIn, []⟩ = some sampleOldWndResult ∧
    ((sampleOldWndResult.pcb.sndWnd = sampleWndPcb.sndWnd ∧ sampleOldWndResult.pcb.sndWl1 = sampleWndPcb.sndWl1 ∧
        sampleOldWndResult.pcb.sndWl2 = sampleWndPcb.sndWl2) ∨
      (sampleOldWndIn.flags.ack = true ∧ sampleOldWndResult.pcb.sndWl1 = sampleOldWndIn.seqno ∧
        sampleOldWndResult.pcb.sndWl2 = sampleOldWndIn.ackno ∧
        sampleOldWndResult.pcb.sndWnd = sampleWndPcb.sndWndScale sampleOldWndIn.tcphdr.wnd ∧
        (tcpSeqLt sampleWndPcb.sndWl1 sampleOldWndIn.seqno = true ∨
          (sampleWndPcb.sndWl1 = sampleOldWndIn.seqno ∧ tcpSeqLt sampleWndPcb.sndWl2 sampleOldWndIn.ackno = true) ∨
          (sampleWndPcb.sndWl2 = sampleOldWndIn.ackno ∧ sampleWndPcb.sndWnd < sampleOldWndResult.pcb.sndWnd)))) :=
  have h : tcpReceive {} {} ⟨sampleWndPcb, sampleOldWndIn, []⟩ = some sampleOldWndResult := rfl
  ⟨h, window_update_source h⟩

/-- The older segment 1500 moves `snd_wl1` back from 2000 and overwrites the send window: the
third clause of the update test (same `ackno`, larger window) takes no account of `seqno`. -/
theorem older_segment_overwrites_snd_wnd :
    tcpSeqLt 1500 2000 = true ∧
      (tcpReceive {} {} ⟨sampleWndPcb, sampleOldWndIn, []⟩).map
        (fun c => (c.pcb.sndWl1, c.pcb.sndWl2, c.pcb.sndWnd)) = some (1500, 500, 1000) := by
  decide


/-! ## The RTT estimator -/

/-- A non-negative `s16_t` shifts right as a natural number. -/
private theorem sshiftRight_toNat (x : S16) (k : Nat) (h : x.toNat < 2^15) :
    (x.sshiftRight k).toNat = x.toNat / 2^k := by
  rw [BitVec.sshiftRight_eq_of_msb_false (BitVec.msb_eq_false_iff_two_mul_lt.mpr (by omega))]
  simp [Nat.shiftRight_eq_div_pow]

private theorem s16_toInt_neg_iff (x : S16) : x.toInt < 0 ↔ 2^15 ≤ x.toNat := by
  rw [BitVec.toInt_eq_toNat_cond]; split_ifs <;> omega

/-- One sample of at most 4095 ticks keeps the fixed-point estimator inside its envelope:
`sa` at most `8 * 4095`, and `(sa >> 3) + sv`, the next `rto`, at most 32767. -/
theorem rtt_filter_step (m sa sv : S16) (hm : m.toNat ≤ 4095) (hsa : sa.toNat ≤ 32760)
    (hsv : sa.toNat / 8 + sv.toNat ≤ 32767) :
    let m := m - sa.sshiftRight 3
    let sa' := sa + m
    let m := if m.toInt < 0 then -m else m
    let m := m - sv.sshiftRight 2
    let sv' := sv + m
    sa'.toNat ≤ 32760 ∧ sa'.toNat / 8 + sv'.toNat ≤ 32767 ∧ (sa'.sshiftRight 3 + sv').toNat ≤ 32767 := by
  intro m₁ sa' m₂ m₃ sv'
  have ha : (sa.sshiftRight 3).toNat = sa.toNat / 8 := sshiftRight_toNat sa 3 (by omega)
  have hb : (sv.sshiftRight 2).toNat = sv.toNat / 4 := sshiftRight_toNat sv 2 (by omega)
  have hm₂ : m₂.toNat ≤ 4095 := by
    simp only [m₂, m₁, s16_toInt_neg_iff]
    split_ifs with hn <;> simp only [BitVec.toNat_neg, BitVec.toNat_sub, ha, Nat.reducePow] at hn ⊢ <;> omega
  have hsa' : sa'.toNat = sa.toNat + m.toNat - sa.toNat / 8 := by
    simp only [sa', m₁]; bv_omega
  have hsv' : sv'.toNat = sv.toNat + m₂.toNat - sv.toNat / 4 := by
    simp only [sv', m₃]; bv_omega
  have hc : (sa'.sshiftRight 3).toNat = sa'.toNat / 8 := sshiftRight_toNat sa' 3 (by omega)
  have hrto : sa'.toNat / 8 + sv'.toNat ≤ 32767 := by omega
  exact ⟨by omega, hrto, by bv_omega⟩

/-- The `s16_t` elapsed-tick value `m = tcp_ticks - rttest` of the RTT sample a call takes. -/
def rttElapsed (env : Env) (p : Pcb) : S16 := (env.ticks - p.rttest).setWidth 16

/-- Whether a call of `tcp_receive` on `p` with the segment `d` takes an RTT sample. -/
def rttSampled (p : Pcb) (d : InData) : Bool := d.flags.ack && (p.rttest ≠ 0 && tcpSeqLt p.rtseq d.ackno)

/-- The envelope of the RTT estimator, on the bits of the `s16_t` fields: `sa` at most
`8 * 4095`, `(sa >> 3) + sv`, the `rto` the next ACK of new data sets, at most 32767, and `rto`
at most 32767. A bound below `2^15` on the bits is the same bound on the non-negative value. -/
structure RttOk (s : SndSide) : Prop where
  sa_le : s.sa.toNat ≤ 32760
  rto_next_le : s.sa.toNat / 8 + s.sv.toNat ≤ 32767
  rto_le : s.rto.toNat ≤ 32767

section Rtt
variable {cfg : Config} {env : Env} {c c' : Ctx}

theorem RttOk.rto_reset {s : SndSide} (h : RttOk s) : (s.sa.sshiftRight 3 + s.sv).toNat ≤ 32767 := by
  have ha : (s.sa.sshiftRight 3).toNat = s.sa.toNat / 8 := sshiftRight_toNat s.sa 3 (by have := h.sa_le; omega)
  have := h.rto_next_le
  bv_omega

theorem tcpRttSample_rttOk (hs : RttOk c.pcb.sndSide)
    (hm : c.pcb.rttest ≠ 0 → tcpSeqLt c.pcb.rtseq c.d.ackno = true → (rttElapsed env c.pcb).toNat ≤ 4095) :
    RttOk (tcpRttSample env c).pcb.sndSide := by
  unfold tcpRttSample
  dsimp only
  split
  · rename_i hc
    simp only [Bool.and_eq_true, decide_eq_true_eq] at hc
    obtain ⟨h1, h2, h3⟩ := rtt_filter_step _ c.pcb.sa c.pcb.sv (hm hc.1 hc.2) hs.sa_le hs.rto_next_le
    exact ⟨h1, h2, h3⟩
  · exact hs

/-- Before `tcp_receive` takes its RTT sample, the ACK half has left the estimator and the
sample's inputs as they were, but for `rto`, which an ACK of new data resets to
`(sa >> 3) + sv`. -/
theorem tcpReceiveAck_before_sample (h : tcpReceiveAck cfg env c = some c') :
    ∃ c₃ : Ctx, c' = tcpRttSample env c₃ ∧ c₃.d = c.d ∧ c₃.pcb.sa = c.pcb.sa ∧ c₃.pcb.sv = c.pcb.sv ∧
      c₃.pcb.rttest = c.pcb.rttest ∧ c₃.pcb.rtseq = c.pcb.rtseq ∧
      (c₃.pcb.rto = c.pcb.rto ∨ c₃.pcb.rto = c.pcb.sa.sshiftRight 3 + c.pcb.sv) := by
  simp only [tcpReceiveAck, Option.bind_eq_bind, Option.bind_eq_some, Option.some.injEq] at h
  obtain ⟨c₂, h₂, c₃, h₃, rfl⟩ := h
  obtain ⟨l, k, r, e₂, hr, hd₂⟩ := tcpAckClassify_sndSide h₂
  obtain ⟨e₃, -, hd₃⟩ := tcpAckUnsent_sndSide h₃
  have hw := tcpWindowUpdate_sndSide c.pcb c.d
  have e := (e₃.trans e₂).trans
    (congrArg (fun s : SndSide => { s with lastack := l, dupacks := k, rto := r }) hw)
  have hrto : (tcpWindowUpdate c.pcb c.d).1.rto = c.pcb.rto := congrArg SndSide.rto hw
  have hsa : (tcpWindowUpdate c.pcb c.d).1.sa = c.pcb.sa := congrArg SndSide.sa hw
  have hsv : (tcpWindowUpdate c.pcb c.d).1.sv = c.pcb.sv := congrArg SndSide.sv hw
  refine ⟨c₃, rfl, hd₃.trans hd₂, congrArg SndSide.sa e, congrArg SndSide.sv e,
    congrArg SndSide.rttest e, congrArg SndSide.rtseq e, ?_⟩
  rw [show c₃.pcb.rto = r from congrArg SndSide.rto e]
  dsimp only at hr
  rwa [hrto, hsa, hsv] at hr

/-- One call of `tcp_receive` whose RTT sample, if it takes one, is at most 4095 ticks keeps the
estimator in its envelope. -/
theorem tcpReceive_rttOk (h : tcpReceive cfg env c = some c') (hs : RttOk c.pcb.sndSide)
    (hm : rttSampled c.pcb c.d = true → (rttElapsed env c.pcb).toNat ≤ 4095) :
    RttOk c'.pcb.sndSide := by
  obtain ⟨c₁, h₁, hk⟩ := tcpReceive_ackHalf h
  rw [hk.1]
  split at h₁
  · rename_i hack
    obtain ⟨c₃, rfl, hd, hsa, hsv, hrt, hrs, hrto⟩ := tcpReceiveAck_before_sample h₁
    refine tcpRttSample_rttOk ⟨?_, ?_, ?_⟩ fun h1 h2 => ?_
    · show c₃.pcb.sa.toNat ≤ _
      rw [hsa]; exact hs.sa_le
    · show c₃.pcb.sa.toNat / 8 + c₃.pcb.sv.toNat ≤ _
      rw [hsa, hsv]; exact hs.rto_next_le
    · show c₃.pcb.rto.toNat ≤ _
      rcases hrto with e | e <;> rw [e]
      · exact hs.rto_le
      · exact hs.rto_reset
    · rw [hrt] at h1
      rw [hrs, hd] at h2
      rw [show rttElapsed env c₃.pcb = rttElapsed env c.pcb by simp only [rttElapsed, hrt]]
      exact hm (by simp only [rttSampled, hack, h2, ne_eq, h1, not_false_eq_true, decide_True, Bool.and_self])
  · cases h₁; exact hs

end Rtt

/-- The connections that runs of `tcp_receive` calls reach from `p` when every RTT sample they
take is at most `M` ticks. -/
inductive RttRun (cfg : Config) (M : Nat) (p : Pcb) : Pcb → Prop
  | start : RttRun cfg M p p
  | call {q : Pcb} {env : Env} {d : InData} {ev : List Event} {c : Ctx} :
      RttRun cfg M p q → tcpReceive cfg env ⟨q, d, ev⟩ = some c →
      (rttSampled q d = true → (rttElapsed env q).toNat ≤ M) → RttRun cfg M p c.pcb

private theorem toInt_of_toNat_le (x : S16) (h : x.toNat ≤ 32767) : x.toInt = x.toNat := by
  rw [BitVec.toInt_eq_toNat_cond, if_pos (by omega)]

/-- With samples of at most 4095 ticks the RTT estimator never overflows: from `sa = 0` and any
`0 ≤ sv ≤ 32767` (more generally, from the envelope `RttOk`), `sa`, `sv` and `rto` stay within
`[0, 32767]` after every call of every run. -/
theorem rtt_estimator_in_range (cfg : Config) (p q : Pcb) (hp : RttOk p.sndSide) (hr : RttRun cfg 4095 p q) :
    0 ≤ q.sa.toInt ∧ q.sa.toInt ≤ 32767 ∧ 0 ≤ q.sv.toInt ∧ q.sv.toInt ≤ 32767 ∧
      0 ≤ q.rto.toInt ∧ q.rto.toInt ≤ 32767 := by
  have hq : RttOk q.sndSide := by
    induction hr with
    | start => exact hp
    | call _ hc hm ih => exact tcpReceive_rttOk hc ih hm
  have h1 := hq.sa_le
  have h2 := hq.rto_next_le
  have h3 := hq.rto_le
  simp only [Pcb.sndSide] at h1 h2 h3
  rw [toInt_of_toNat_le q.sa (by omega), toInt_of_toNat_le q.sv (by omega), toInt_of_toNat_le q.rto h3]
  omega

/-- A connection timing one segment, its marker set at tick 1 for sequence number 400, with a
fresh estimator: `sa = 0`, `sv = 0`. -/
def sampleFreshRttPcb : Pcb := { sampleEstPcb with rttest := 1, rtseq := 400, rto := 6 }

def sampleFreshRttResult : Ctx :=
  (tcpReceive {} { ticks := 101 } ⟨sampleFreshRttPcb, sampleAckIn, []⟩).getD ⟨sampleFreshRttPcb, sampleAckIn, []⟩

theorem rtt_estimator_in_range_sample :
    RttOk sampleFreshRttPcb.sndSide ∧ RttRun {} 4095 sampleFreshRttPcb sampleFreshRttResult.pcb ∧
      (0 ≤ sampleFreshRttResult.pcb.sa.toInt ∧ sampleFreshRttResult.pcb.sa.toInt ≤ 32767 ∧
        0 ≤ sampleFreshRttResult.pcb.sv.toInt ∧ sampleFreshRttResult.pcb.sv.toInt ≤ 32767 ∧
        0 ≤ sampleFreshRttResult.pcb.rto.toInt ∧ sampleFreshRttResult.pcb.rto.toInt ≤ 32767) :=
  have hp : RttOk sampleFreshRttPcb.sndSide := ⟨by decide, by decide, by decide⟩
  have hr : RttRun {} 4095 sampleFreshRttPcb sampleFreshRttResult.pcb :=
    .call .start (rfl : tcpReceive {} { ticks := 101 } ⟨sampleFreshRttPcb, sampleAckIn, []⟩ = some sampleFreshRttResult)
      fun _ => by decide
  ⟨hp, hr, rtt_estimator_in_range {} _ _ hp hr⟩

/-- One round trip of 32767 ticks, the largest the comment on the cast admits, taken from
`sa = 0`, `sv = 0`, sets `sa` and `sv` to 32767 and `rto` to `(32767 >> 3) + 32767 = 36862`,
which as an `s16_t` is -28674. -/
theorem rtt_sample_of_32767_ticks_overflows_rto :
    rttSampled sampleFreshRttPcb sampleAckIn = true ∧ (rttElapsed { ticks := 32768 } sampleFreshRttPcb).toInt = 32767 ∧
      (tcpReceive {} { ticks := 32768 } ⟨sampleFreshRttPcb, sampleAckIn, []⟩).map
        (fun c => (c.pcb.sa.toInt, c.pcb.sv.toInt, c.pcb.rto.toInt)) = some (32767, 32767, -28674) := by
  decide

end XlioTcp
