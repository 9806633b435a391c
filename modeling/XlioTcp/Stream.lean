import XlioTcp.OoseqOrder
import XlioTcp.ChainTrim

/-! The out-of-order queue against the byte stream the peer sends. `SegAgrees D r e` says that
an entry holds exactly the stream's bytes at its place, a FIN only at the stream's end; it is a
property of entries the placement keeps (`SegAgrees.entryClosed`), since `pbuf_realloc` keeps
the first bytes of a chain (`pbufRealloc_spec`).

* `tcpReceive_ooseqAgrees`: a call of `tcp_receive` may lose buffered bytes, never change them. -/
namespace XlioTcp

/-! ## Chains -/

/-- The walk of `pbuf_realloc` keeps the first `rem` bytes of a consistent chain longer than
`rem`, as a consistent chain of `tot_len` `rem`: `grow` takes each kept `tot_len` there. -/
theorem reallocWalk_spec (grow : U32) :
    ∀ (p : List Pbuf) (rem : U32), ChainOk p → rem.toNat < (chainTotLen p).toNat →
      chainTotLen p + grow = rem →
      ∃ p', reallocWalk grow rem p = some p' ∧ ChainOk p' ∧ chainTotLen p' = rem ∧
        chainData p' = (chainData p).take rem.toNat
  | [], _, _, h, _ => absurd h (Nat.not_lt_zero _)
  | q :: qs, rem, ⟨hq, ht, hqs⟩, h, hg => by
    have hd := Pbuf.data_length hq
    simp only [chainTotLen_cons] at h hg
    unfold reallocWalk
    split
    · rename_i hgt
      have hgt' : q.len.toNat < rem.toNat := hgt
      have hsub : (rem - q.len).toNat = rem.toNat - q.len.toNat := BitVec.toNat_sub_of_le (by bv_omega)
      obtain ⟨w, hw, hok, htot, hdata⟩ :=
        reallocWalk_spec grow qs (rem - q.len) hqs (by omega) (by bv_omega)
      refine ⟨{ q with totLen := q.totLen + grow } :: w, by rw [hw]; rfl, ⟨hq, ?_, hok⟩, hg, ?_⟩
      · show (q.totLen + grow).toNat = q.len.toNat + (chainTotLen w).toNat
        rw [hg, htot, hsub]; omega
      · rw [chainData_cons, chainData_cons, hdata, hsub, List.take_append_eq_append_take, hd,
          List.take_of_length_le (l := q.data) (by omega)]
        rfl
    · rename_i hle
      have hle' : rem.toNat ≤ q.len.toNat := by simpa [BitVec.lt_def] using hle
      refine ⟨_, rfl, ⟨by simp only; omega, by simp [chainTotLen], trivial⟩, rfl, ?_⟩
      simp only [chainData_cons, chainData_nil, List.append_nil, Pbuf.data]
      rw [List.take_append_eq_append_take, List.take_take, List.length_take, min_eq_left hle', min_eq_left hq,
        Nat.sub_eq_zero_of_le hle', List.take_zero, List.append_nil]

/-- `pbuf_realloc` cuts a consistent chain to its first `n` bytes, as a consistent chain of
`tot_len` `n`. -/
theorem pbufRealloc_spec {p : List Pbuf} (h : ChainOk p) {n : U32} (hn : n.toNat ≤ (chainTotLen p).toNat) :
    ∃ p', pbufRealloc p n = some p' ∧ ChainOk p' ∧ chainTotLen p' = n ∧
      chainData p' = (chainData p).take n.toNat := by
  unfold pbufRealloc
  split
  · rename_i hge
    have he : chainTotLen p = n := BitVec.eq_of_toNat_eq (by rw [ge_iff_le, BitVec.le_def] at hge; omega)
    refine ⟨p, rfl, h, he, ?_⟩
    rw [List.take_of_length_le (by rw [← h.totLen_eq, he])]
  · rename_i hlt
    exact reallocWalk_spec _ p n h (by rw [ge_iff_le, BitVec.not_le, BitVec.lt_def] at hlt; exact hlt)
      (by rw [BitVec.add_comm, BitVec.sub_add_cancel])

/-! ## Segments against the stream -/

/-- A segment agrees with the byte stream `D` the peer sends from sequence number `r` on: its
chain is consistent and holds its `len` bytes, which are the stream's bytes at the segment's
place, and a FIN on it sits at the stream's end. -/
structure SegAgrees (D : List UInt8) (r : U32) (e : TcpSeg) : Prop where
  chain_ok : ChainOk e.p
  totLen_eq : chainTotLen e.p = e.len
  end_le : seqOff r e.start + e.len.toNat ≤ D.length
  data_eq : chainData e.p = (D.drop (seqOff r e.start)).take e.len.toNat
  fin_end : e.tcphdr.flags.fin = true → seqOff r e.start + e.len.toNat = D.length

section Agrees
variable {D : List UInt8} {r : U32}

/-- Agreement with the stream is a property of entries the placement keeps: a cut keeps the
stream's first bytes of the entry, and a covering segment takes over a FIN only where the
stream ends. -/
theorem SegAgrees.entryClosed : EntryClosed r (SegAgrees D r) :=
  ⟨fun {e n p} h hf hn hp => by
    obtain ⟨p', hp', hok, htot, hdata⟩ := pbufRealloc_spec h.chain_ok (n := n) (by rw [h.totLen_eq]; exact hn)
    obtain rfl : p = p' := Option.some_inj.mp (hp.symm.trans hp')
    have := h.end_le
    refine ⟨hok, htot, show seqOff r e.start + n.toNat ≤ _ by omega, ?_,
      fun h' => absurd (hf.symm.trans h') Bool.false_ne_true⟩
    show chainData p = (D.drop (seqOff r e.start)).take n.toNat
    rw [hdata, h.data_eq, List.take_take, min_eq_left hn],
  fun h => ⟨h.chain_ok, h.totLen_eq, h.end_le, h.data_eq, fun h' => Bool.noConfusion h'⟩,
  fun {e _} h hm hf hle => ⟨h.chain_ok, h.totLen_eq, h.end_le, h.data_eq,
    fun _ => le_antisymm h.end_le (show D.length ≤ seqOff r e.start + e.len.toNat by have := hm.fin_end hf; omega)⟩⟩

end Agrees

/-! ## The queue across a call of `tcp_receive` -/

/-- The drain takes entries off the front of the queue. -/
theorem tcpDrainOoseq_suffix : ∀ (q : List TcpSeg) (c : Ctx), (tcpDrainOoseq q c).pcb.ooseq <:+ q
  | [], _ => List.nil_suffix
  | e :: q, c => by
    unfold tcpDrainOoseq
    split
    · exact (tcpDrainOoseq_suffix q _).trans (List.suffix_cons _ _)
    · exact List.suffix_rfl

/-- Reconciling an in-sequence segment with the queue leaves a suffix of it. -/
theorem tcpTrimToOoseq_suffix {c c' : Ctx} (h : tcpTrimToOoseq c = some c') : c'.pcb.ooseq <:+ c.pcb.ooseq := by
  simp only [tcpTrimToOoseq, Option.map_eq_map] at h
  split_ifs at h
  · cases h; exact List.suffix_rfl
  · cases h; exact List.nil_suffix
  have hsuf := inseqDropCovered_suffix c.d.seqno c.d.inseg c.d.tcplen c.pcb.ooseq
  generalize inseqDropCovered c.d.seqno c.d.inseg c.d.tcplen c.pcb.ooseq = res at h hsuf
  obtain ⟨seg, t, _ | ⟨n, rest⟩⟩ := res
  · cases h; exact List.nil_suffix
  dsimp only at h
  split_ifs at h <;> first
    | (cases h; exact hsuf)
    | (obtain ⟨_, -, rfl⟩ := Option.map_eq_some'.mp h; exact hsuf)

/-- An in-sequence segment only takes entries off the queue. -/
theorem tcpReceiveInSeq_suffix {cfg : Config} {c c' : Ctx} (h : tcpReceiveInSeq cfg c = some c') :
    c'.pcb.ooseq <:+ c.pcb.ooseq := by
  simp only [tcpReceiveInSeq, Option.bind_eq_bind, Option.bind_eq_some, Option.some.injEq] at h
  obtain ⟨c₁, h₁, c₂, h₂, rfl⟩ := h
  rw [(tcpAckDelivered_ooseq _).2, ← (tcpTrimToWindow_pcb h₁).1]
  have h₃ : (tcpAcceptInSeq c₂).pcb.ooseq <:+ c₁.pcb.ooseq := @tcpTrimToOoseq_suffix c₁ c₂ h₂
  exact (tcpDrainOoseq_suffix _ _).trans h₃

section Call
variable {cfg : Config} {env : Env} {D : List UInt8}

/-- The data half of `tcp_receive` keeps every `ooseq` entry in agreement with the stream. -/
theorem tcpReceiveData_agrees {c c' : Ctx} (hq : OoseqWf c.pcb.rcvNxt 1 c.pcb.ooseq)
    (hqa : ∀ e ∈ c.pcb.ooseq, SegAgrees D c.pcb.rcvNxt e) (hd : RxSegOk c.d)
    (hda : seqOff c.pcb.rcvNxt c.d.seqno < 2^31 → SegAgrees D c.pcb.rcvNxt c.d.inseg)
    (hw0 : 0 < c.pcb.rcvWnd.toNat) (hw : c.pcb.rcvWnd.toNat < 2^30) (ht : 0 < c.d.tcplen.toNat)
    (h : tcpReceiveData cfg env c = some c') : ∀ e ∈ c'.pcb.ooseq, SegAgrees D c.pcb.rcvNxt e := by
  obtain ⟨c₁, hn, ho, ⟨-, -, h₂⟩ | ⟨hdd, hoos, h₂⟩ | ⟨-, ho'⟩⟩ := tcpReceiveData_cases hd hw0 hw ht h
  all_goals rw [← ho] at hqa
  · exact fun e he => hqa e ((tcpReceiveInSeq_suffix h₂).subset he)
  · have hin : seqOff c.pcb.rcvNxt c.d.seqno < 2^31 := by
      rw [← hn, ← hdd]; exact hoos.before.trans hoos.right_lt
    have hP : EntryClosed c₁.pcb.rcvNxt (SegAgrees D c.pcb.rcvNxt) := by rw [hn]; exact SegAgrees.entryClosed
    have hq₁ : OoseqWf c₁.pcb.rcvNxt 1 c₁.pcb.ooseq := by rw [hn, ho]; exact hq
    exact (tcpReceiveOoseq_wf hP hq₁ hoos (by rw [hdd]; exact hda hin) hqa h₂).2.2
  · rwa [ho']

/-- Buffered out-of-order data is never corrupted: when every `ooseq` entry holds exactly the
bytes of the peer's stream at its place (a FIN only at the stream's end), and so does a segment
that starts at or after `rcv_nxt`, every entry still does after `tcp_receive`, read from the
same base. Bytes may be lost (the tail append cuts an entry short), never changed. -/
theorem tcpReceive_ooseqAgrees {c c' : Ctx} (hq : OoseqWf c.pcb.rcvNxt 1 c.pcb.ooseq)
    (hqa : ∀ e ∈ c.pcb.ooseq, SegAgrees D c.pcb.rcvNxt e) (hd : RxSegOk c.d)
    (hda : seqOff c.pcb.rcvNxt c.d.seqno < 2^31 → SegAgrees D c.pcb.rcvNxt c.d.inseg)
    (hw0 : 0 < c.pcb.rcvWnd.toNat) (hw : c.pcb.rcvWnd.toNat < 2^30)
    (h : tcpReceive cfg env c = some c') : ∀ e ∈ c'.pcb.ooseq, SegAgrees D c.pcb.rcvNxt e := by
  obtain ⟨c₁, hn, ho, hwn, hd₁, ⟨ht, h₂⟩ | ⟨-, ho'⟩⟩ := tcpReceive_cases h
  · rw [← hn, ← ho] at hq hqa
    rw [← hn, ← hd₁] at hda
    rw [← hn]
    rw [← hd₁] at hd
    rw [← hwn] at hw0 hw
    exact tcpReceiveData_agrees hq hqa hd hda hw0 hw ht h₂
  · rwa [ho']

end Call

/-- Thirty bytes of the value 7 from 1000 on. -/
def sampleStream : List UInt8 := List.replicate 30 7

theorem tcpReceive_ooseqAgrees_sample :
    OoseqWf sampleOoseqCtx.pcb.rcvNxt 1 sampleOoseqCtx.pcb.ooseq ∧
      (∀ e ∈ sampleOoseqCtx.pcb.ooseq, SegAgrees sampleStream sampleOoseqCtx.pcb.rcvNxt e) ∧
      RxSegOk sampleOoseqCtx.d ∧
      (seqOff sampleOoseqCtx.pcb.rcvNxt sampleOoseqCtx.d.seqno < 2^31 →
        SegAgrees sampleStream sampleOoseqCtx.pcb.rcvNxt sampleOoseqCtx.d.inseg) ∧
      0 < sampleOoseqCtx.pcb.rcvWnd.toNat ∧ sampleOoseqCtx.pcb.rcvWnd.toNat < 2^30 ∧
      ∀ e ∈ sampleOoseqResult.pcb.ooseq, SegAgrees sampleStream sampleOoseqCtx.pcb.rcvNxt e :=
  have hqa : ∀ e ∈ sampleOoseqCtx.pcb.ooseq, SegAgrees sampleStream sampleOoseqCtx.pcb.rcvNxt e :=
    List.forall_mem_singleton.mpr ⟨by decide, by decide, by decide, by decide, fun h => nomatch h⟩
  have hda : seqOff sampleOoseqCtx.pcb.rcvNxt sampleOoseqCtx.d.seqno < 2^31 →
      SegAgrees sampleStream sampleOoseqCtx.pcb.rcvNxt sampleOoseqCtx.d.inseg :=
    fun _ => ⟨by decide, by decide, by decide, by decide, fun h => nomatch h⟩
  ⟨by decide, hqa, ⟨rfl, rfl, by decide, by decide⟩, hda, by decide, by decide,
    @tcpReceive_ooseqAgrees {} {} sampleStream sampleOoseqCtx sampleOoseqResult (by decide) hqa
      ⟨rfl, rfl, by decide, by decide⟩ hda (by decide) (by decide) rfl⟩

end XlioTcp
