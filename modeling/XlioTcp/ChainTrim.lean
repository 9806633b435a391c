import XlioTcp.Delivery

/-! Trimming the front of a buffer chain, over the bytes it holds: the left-edge trim of
`tcp_receive` and the two shrinkers of the transmit queues. -/
namespace XlioTcp

/-! ## Chains -/

theorem Pbuf.data_length {q : Pbuf} (h : q.len.toNat ≤ q.payload.length) : q.data.length = q.len.toNat := by
  simp [Pbuf.data, h]

/-- A fragment with `n` bytes hidden at its front holds its old data without them. -/
theorem pbufHeaderHide_data {q : Pbuf} {n : U32} (hn : n ≤ q.len) :
    (pbufHeaderHide q n).data = q.data.drop n.toNat := by
  have hn' : n.toNat ≤ q.len.toNat := hn
  simp only [pbufHeaderHide, hn, if_true, Pbuf.data, List.drop_take]
  rw [BitVec.toNat_sub_of_le hn]

/-- Hiding `n ≤ len` bytes at the front of a chain's first fragment keeps the chain consistent;
its `tot_len` drops by `n`. -/
theorem ChainOk.headerHide {q : Pbuf} {r : List Pbuf} {n : U32} (h : ChainOk (q :: r)) (hn : n ≤ q.len) :
    ChainOk (pbufHeaderHide q n :: r) ∧ (pbufHeaderHide q n).totLen.toNat = q.totLen.toNat - n.toNat := by
  obtain ⟨hq, ht, hr⟩ := h
  have hn' : n.toNat ≤ q.len.toNat := hn
  rw [pbufHeaderHide, if_pos hn]
  refine ⟨⟨?_, ?_, hr⟩, ?_⟩ <;> simp only [List.length_drop, BitVec.toNat_sub_of_le hn,
    BitVec.toNat_sub_of_le (show n.toNat ≤ q.totLen.toNat by omega)] <;> omega

theorem ChainOk.of_append : ∀ {w r : List Pbuf}, ChainOk (w ++ r) → ChainOk r
  | [], _, h => h
  | _ :: _, _, h => ChainOk.of_append h.2.2

/-! ## The left-edge trim -/

/-- The `while (p->len < off)` walk on a consistent chain holding at least `off > 0` bytes, with
`newTotLen` the bytes left after them: it ends on the chain, hides exactly the first `off`
bytes, and every `tot_len` it leaves is consistent, the first one `newTotLen`. -/
theorem trimLeftWalk_spec (newTotLen : U32) :
    ∀ (p : List Pbuf) (off : U32), ChainOk p → 0 < off.toNat → off.toNat ≤ (chainTotLen p).toNat →
      (chainTotLen p).toNat - off.toNat = newTotLen.toNat →
      ∃ p', trimLeftWalk newTotLen off p = some p' ∧ ChainOk p' ∧
        chainData p' = (chainData p).drop off.toNat ∧ chainTotLen p' = newTotLen
  | [], off, _, h0, hle, _ => absurd hle (by simp only [chainTotLen]; exact Nat.not_le_of_lt h0)
  | q :: qs, off, hp, h0, hle, hnew => by
    obtain ⟨hq, ht, hqs⟩ := hp
    have hd := Pbuf.data_length hq
    simp only [chainTotLen_cons] at hle hnew
    unfold trimLeftWalk
    split
    · -- `q` lies wholly before the new start: it is emptied
      rename_i hlt
      have hlt' : q.len.toNat < off.toNat := hlt
      have hsub : (off - q.len).toNat = off.toNat - q.len.toNat := BitVec.toNat_sub_of_le (by bv_omega)
      obtain ⟨p', hw, hok, hdata, htot⟩ :=
        trimLeftWalk_spec newTotLen qs (off - q.len) hqs (by omega) (by omega) (by omega)
      refine ⟨{ q with totLen := newTotLen, len := 0 } :: p', by rw [hw]; rfl,
        ⟨Nat.zero_le _, by rw [htot]; exact (Nat.zero_add _).symm, hok⟩, ?_, rfl⟩
      have hnil : q.data.drop off.toNat = [] := List.drop_eq_nil_of_le (by omega)
      rw [chainData_cons, chainData_cons, hdata, hsub, List.drop_append_eq_append_drop, hnil, hd]
      rfl
    · -- the new start falls inside `q`
      have hle' : off ≤ q.len := BitVec.not_lt.mp ‹_›
      obtain ⟨hok, htot⟩ := ChainOk.headerHide ⟨hq, ht, hqs⟩ hle'
      refine ⟨_, rfl, hok, ?_, BitVec.eq_of_toNat_eq (by rw [chainTotLen_cons, htot]; omega)⟩
      rw [chainData_cons, chainData_cons, pbufHeaderHide_data hle',
        List.drop_append_of_le_length (by rw [hd]; exact hle')]

/-- The left-edge trim on a consistent chain and `0 < off ≤ tot_len`: the walk from the chain's
first fragment, aimed at `tot_len - off`. -/
theorem trimLeft_spec (p : List Pbuf) (off : U32) (hp : ChainOk p) (h0 : 0 < off.toNat)
    (hle : off.toNat ≤ (chainTotLen p).toNat) :
    ∃ p', trimLeft p off = some p' ∧ ChainOk p' ∧ chainData p' = (chainData p).drop off.toNat ∧
      chainTotLen p' = chainTotLen p - off := by
  match p, hp, hle with
  | [], _, hle => exact absurd hle (by simp only [chainTotLen]; exact Nat.not_le_of_lt h0)
  | q :: qs, hp, hle =>
    have hsub : (q.totLen - off).toNat = q.totLen.toNat - off.toNat := BitVec.toNat_sub_of_le hle
    obtain ⟨p', hw, hrest⟩ := trimLeftWalk_spec (q.totLen - off) (q :: qs) off hp h0 hle (by rw [hsub]; rfl)
    refine ⟨p', ?_, hrest⟩
    rw [← hw, trimLeft, trimLeftWalk]
    split <;> rfl

/-- The guard of the trim: `rcv_nxt` lies in `[seqno + 1, …]`, so the offset is not zero. -/
theorem tcpSeqBetween_off_pos {a b c : U32} (h : tcpSeqBetween a (b + 1) c = true) :
    0 < (a - b).toNat := by
  have hlt : tcpSeqLt b a = true := by
    rw [← tcpSeqGeq_add_one]; exact ((Bool.and_eq_true _ _).mp h).1
  rw [tcpSeqLt_iff] at hlt
  bv_omega

theorem left_edge_trim_exact :
    (∀ (p : List Pbuf) (off : U32), ChainOk p → 0 < off.toNat → off.toNat ≤ (chainTotLen p).toNat →
      ∃ p', trimLeft p off = some p' ∧ ChainOk p' ∧ chainData p' = (chainData p).drop off.toNat ∧
        chainTotLen p' = chainTotLen p - off) ∧
    ∀ c : Ctx, tcpSeqBetween c.pcb.rcvNxt (c.d.seqno + 1) (c.d.seqno + c.d.tcplen.setWidth 32 - 1) = true →
      ChainOk c.d.inseg.p → (c.pcb.rcvNxt - c.d.seqno).toNat ≤ (chainTotLen c.d.inseg.p).toNat →
      ∃ c', tcpTrimLeftEdge c = some c' ∧ c'.pcb = c.pcb ∧ ChainOk c'.d.inseg.p ∧
        chainData c'.d.inseg.p = (chainData c.d.inseg.p).drop (c.pcb.rcvNxt - c.d.seqno).toNat ∧
        chainTotLen c'.d.inseg.p = chainTotLen c.d.inseg.p - (c.pcb.rcvNxt - c.d.seqno) ∧
        c'.d.inseg.len = c.d.inseg.len - (c.pcb.rcvNxt - c.d.seqno) ∧
        (c.d.inseg.len = chainTotLen c.d.inseg.p → c'.d.inseg.len = chainTotLen c'.d.inseg.p) ∧
        c'.d.seqno = c.pcb.rcvNxt ∧ c'.d.inseg.tcphdr.seqno = c.pcb.rcvNxt := by
  refine ⟨trimLeft_spec, fun c hg hp hle => ?_⟩
  obtain ⟨p', ht, hok, hdata, htot⟩ := trimLeft_spec _ _ hp (tcpSeqBetween_off_pos hg) hle
  simp only [tcpTrimLeftEdge, hg, if_true, ht, Option.map_eq_map, Option.map_some', Option.some.injEq,
    exists_eq_left']
  exact ⟨trivial, hok, hdata, htot, trivial, fun hl => by rw [htot, ← hl], trivial, trivial⟩

/-- Five bytes from 996 in two fragments of three and two bytes, arriving when 1000 is expected:
the trim passes the whole first fragment and one byte of the second. -/
def sampleStraddleCtx : Ctx :=
  let d := dataIn 996 500 { ack := true } 5
  ⟨sampleEstPcb, { d with inseg := { d.inseg with p := [⟨[1, 2, 3], 3, 5, false⟩, ⟨[4, 5], 2, 2, false⟩] } }, []⟩

theorem left_edge_trim_exact_sample :
    ChainOk sampleStraddleCtx.d.inseg.p ∧
      ∃ c', tcpTrimLeftEdge sampleStraddleCtx = some c' ∧ ChainOk c'.d.inseg.p ∧
        chainData c'.d.inseg.p = [5] ∧ chainTotLen c'.d.inseg.p = 1 ∧ c'.d.seqno = 1000 :=
  ⟨by decide, (left_edge_trim_exact.2 sampleStraddleCtx (by decide) (by decide) (by decide)).imp
    fun _ h => ⟨h.1, h.2.2.1, h.2.2.2.1.trans (by decide), h.2.2.2.2.1.trans (by decide), h.2.2.2.2.2.2.2.1⟩⟩

/-! ## Comparisons near an offset -/

section Near
variable {b x y : U32}

theorem tcpSeqGt_near (h1 : seqOff b x ≤ seqOff b y + 2^31) (h2 : seqOff b y ≤ seqOff b x + 2^31) :
    tcpSeqGt x y = true ↔ seqOff b y < seqOff b x ∧ seqOff b x < seqOff b y + 2^31 := by
  rw [tcpSeqGt_iff, BitVec.toNat_sub]
  simp only [seqOff_eq] at h1 h2 ⊢
  have := x.isLt; have := y.isLt; have := b.isLt
  omega

theorem tcpSeqGeq_near (h : seqOff b y ≤ seqOff b x + 2^31) :
    tcpSeqGeq x y = true ↔ seqOff b y ≤ seqOff b x ∧ seqOff b x < seqOff b y + 2^31 := by
  rw [tcpSeqGeq_eq_not_lt, Bool.not_eq_true', ← Bool.not_eq_true, tcpSeqLt_iff, BitVec.toNat_sub]
  simp only [seqOff_eq] at h ⊢
  have := x.isLt; have := y.isLt; have := b.isLt
  omega

end Near

/-- `ackno`, `a` bytes after a segment's start, against the end `t` of the segment's bytes, as
`TCP_SEQ_LT(seqno, ackno) && TCP_SEQ_LT(ackno, seqno + len)` leaves them: inside the segment and
at most half the sequence space before its end, or, at the boundary `a = 2^31`, an empty one. -/
def AckWithin (a t : Nat) : Prop :=
  0 < a ∧ a ≤ 2^31 ∧ t < 2^32 ∧ (a < t ∧ t ≤ a + 2^31 ∨ t = 0 ∧ a = 2^31)

theorem AckWithin.of_tcpSeqLt {b x n : U32} (h1 : tcpSeqLt b x = true) (h2 : tcpSeqLt x (b + n) = true) :
    AckWithin (seqOff b x) n.toNat := by
  rw [tcpSeqLt_iff] at h1 h2
  simp only [AckWithin, seqOff, BitVec.toNat_sub, BitVec.toNat_add] at *
  have := x.isLt; have := b.isLt; have := n.isLt
  omega

/-! ## Transmit segments -/

/-- The bytes a transmit segment carries: after the 20-byte header and the `optlen` option bytes
of its first fragment for a copied segment, the whole chain for a zero-copy one. -/
def TcpSeg.txData (optlen : U32) (s : TcpSeg) : List UInt8 :=
  if s.zerocopy then chainData s.p else (chainData s.p).drop (20 + optlen.toNat)

/-- The sequence-number field of a header's bytes, written by `setHdrSeqno`. -/
theorem seqnoField_setHdrSeqno {x : U32} {h : List UInt8} (hl : 8 ≤ h.length) :
    ((setHdrSeqno x h).drop 4).take 4 = netBytes x := by
  rw [setHdrSeqno_of_le hl, List.append_assoc, List.drop_left' (by simp; omega), List.take_left' (netBytes_length x)]

theorem seqnoField_take (l : List UInt8) : ((l.take 20).drop 4).take 4 = (l.drop 4).take 4 := by
  rw [List.drop_take, List.take_take]; rfl

/-- Writing the value the field already holds changes nothing. -/
theorem setHdrSeqno_of_field {x : U32} {h : List UInt8} (hl : 8 ≤ h.length)
    (hf : (h.drop 4).take 4 = netBytes x) : setHdrSeqno x h = h := by
  conv_rhs => rw [← List.take_append_drop 4 h, ← List.take_append_drop 4 (h.drop 4), hf, List.drop_drop]
  rw [setHdrSeqno_of_le hl, List.append_assoc]

/-- The representation invariant of a queued segment: a consistent chain holding the header and
options (copied segments only) and `len` bytes, and a header carrying the segment's `seqno`, in
`tcphdr` and, for a copied segment, in network order in its bytes. -/
structure TxChainOk (optlen : U32) (s : TcpSeg) : Prop where
  chain : ChainOk s.p
  tot : (chainTotLen s.p).toNat = (if s.zerocopy then 0 else 20 + optlen.toNat) + s.len.toNat
  head : ∃ q qs, s.p = q :: qs ∧ (s.zerocopy = false → 20 + optlen.toNat ≤ q.len.toNat)
  hdrSeqno : s.tcphdr.seqno = s.seqno
  hdrBytes : s.zerocopy = false → ((chainData s.p).drop 4).take 4 = netBytes s.seqno

/-- `s'` and the count `n` are `s` with the prefix `ackno` acknowledges cut off: the same
layout, the header carried over with the new `seqno` (in `tcphdr`, and written into its bytes),
the same end, the bytes before the new start gone, and `n` the fragments unlinked. For a
non-empty segment of at most 2^31 bytes the new start is `ackno`, or short of it by less than
the 4 bytes the options' alignment keeps. -/
structure Shrunk (optlen ackno : U32) (s s' : TcpSeg) (n : U32) : Prop where
  layout : TxChainOk optlen s'
  zerocopy : s'.zerocopy = s.zerocopy
  flags : s'.tcpFlags = s.tcpFlags
  tcphdr : s'.tcphdr = { s.tcphdr with seqno := s'.seqno }
  hdrBytes : s.zerocopy = false → (chainData s'.p).take 20 = setHdrSeqno s'.seqno ((chainData s.p).take 20)
  sameEnd : s'.seqno + s'.len = s.seqno + s.len
  data : s'.txData optlen = (s.txData optlen).drop (seqOff s.seqno s'.seqno)
  count : s'.p.length ≤ s.p.length ∧ n = BitVec.ofNat 32 (s.p.length - s'.p.length)
  reach : 0 < s.len.toNat → s.len.toNat ≤ 2^31 →
    seqOff s'.seqno ackno < if s.zerocopy = false ∧ optlen ≠ 0 then 4 else 1

/-- A shrinker's result of the form it builds, `s` with a new start `δ` bytes on, the length cut
by as much and the header's `seqno` rewritten, is `Shrunk` once its chain has the layout, the
header bytes, the bytes after `δ`, the count, and the new start near `ackno`. -/
theorem Shrunk.of_drop {optlen ackno σ ln n : U32} {s : TcpSeg} {δ : Nat} {p' : List Pbuf}
    (hδ : δ ≤ s.len.toNat) (hσ : seqOff s.seqno σ = δ)
    (hln : ln.toNat = s.len.toNat - δ) (hchain : ChainOk p')
    (htot : (chainTotLen p').toNat = (if s.zerocopy then 0 else 20 + optlen.toNat) + (s.len.toNat - δ))
    (hhead : ∃ q qs, p' = q :: qs ∧ (s.zerocopy = false → 20 + optlen.toNat ≤ q.len.toNat))
    (hhdr : s.zerocopy = false → (chainData p').take 20 = setHdrSeqno σ ((chainData s.p).take 20))
    (hdata : (if s.zerocopy then chainData p' else (chainData p').drop (20 + optlen.toNat)) =
      (s.txData optlen).drop δ)
    (hcount : p'.length ≤ s.p.length ∧ n = BitVec.ofNat 32 (s.p.length - p'.length))
    (hreach : 0 < s.len.toNat → s.len.toNat ≤ 2^31 →
      seqOff σ ackno < if s.zerocopy = false ∧ optlen ≠ 0 then 4 else 1) :
    Shrunk optlen ackno s { s with seqno := σ, len := ln, tcphdr := { s.tcphdr with seqno := σ }, p := p' } n := by
  have hend : σ + ln = s.seqno + s.len := by
    rw [eq_iff_off (b := s.seqno), seqOff_add _ (by have := s.len.isLt; omega), hσ, hln, seqOff_base_add]
    omega
  have hfield : s.zerocopy = false → ((chainData p').drop 4).take 4 = netBytes σ := fun hz => by
    have h20 : 20 ≤ (chainData p').length := by
      rw [← hchain.totLen_eq]; simp only [hz, Bool.false_eq_true, if_false] at htot; omega
    have h8 : 8 ≤ ((chainData s.p).take 20).length := by
      rw [← setHdrSeqno_length σ, ← hhdr hz, List.length_take]; omega
    rw [← seqnoField_take, hhdr hz, seqnoField_setHdrSeqno h8]
  exact ⟨⟨hchain, by rw [hln]; exact htot, hhead, rfl, hfield⟩, rfl, rfl, rfl, hhdr, hend,
    by rw [hσ]; exact hdata, hcount, hreach⟩

/-! ## `tcp_shrink_zc_segment` -/

theorem add_ofNat_add (x y : U32) (m : Nat) : x + y + BitVec.ofNat 32 m = x + BitVec.ofNat 32 (y.toNat + m) := by
  bv_omega

theorem sub_ofNat_add (x y : U32) (m : Nat) : x - y - BitVec.ofNat 32 m = x - BitVec.ofNat 32 (y.toNat + m) := by
  bv_omega

section Zc
variable {b ackno : U32} {t : Nat}

/-- The loop of `tcp_shrink_zc_segment` on a consistent chain ending `t` bytes after `b`: it
stops on a fragment without running off the chain, having dropped the fragments `w`, all below
`ackno`, and moved the start and length by their bytes. -/
theorem zcWalk_exact (hA : AckWithin (seqOff b ackno) t) :
    ∀ (p : List Pbuf) (seqno len count : U32), ChainOk p → p ≠ [] →
      seqOff b seqno + (chainData p).length = t →
      ∃ w v, zcWalk ackno seqno len count p = some v ∧ p = w ++ v.first :: v.cur ∧
        v.seqno = seqno + BitVec.ofNat 32 (chainData w).length ∧
        v.len = len - BitVec.ofNat 32 (chainData w).length ∧
        v.count = count + BitVec.ofNat 32 w.length ∧
        tcpSeqGeq ackno (v.seqno + v.first.len) = false ∧
        (chainData w).length ≤ seqOff b ackno - seqOff b seqno
  | [], _, _, _, _, hne, _ => absurd rfl hne
  | q :: qs, seqno, len, count, hp, _, ht => by
    obtain ⟨hq, -, hqs⟩ := hp
    have hd := Pbuf.data_length hq
    have ⟨_, ha, ht32, hin⟩ := hA
    simp only [chainData_cons, List.length_append, hd] at ht
    have he : seqOff b (seqno + q.len) = seqOff b seqno + q.len.toNat := seqOff_add _ (by omega)
    have hgeq := tcpSeqGeq_near (b := b) (x := ackno) (y := seqno + q.len) (by omega)
    rw [he] at hgeq
    unfold zcWalk
    split
    · -- `q` ends at or before `ackno`: dropped
      rename_i hg
      have hne : qs ≠ [] := by
        rintro rfl
        simp only [chainData_nil, List.length_nil, Nat.add_zero] at ht
        have := hgeq.mp hg
        omega
      obtain ⟨w, v, hv, hpv, hs, hl, hc, hstop, hbelow⟩ :=
        zcWalk_exact hA qs (seqno + q.len) (len - q.len) (count + 1) hqs hne (by rw [he]; omega)
      have := hgeq.mp hg
      rw [he] at hbelow
      refine ⟨q :: w, v, hv, by rw [hpv]; rfl, ?_, ?_, ?_, hstop, ?_⟩
      · rw [hs, chainData_cons, List.length_append, hd, add_ofNat_add]
      · rw [hl, chainData_cons, List.length_append, hd, sub_ofNat_add]
      · rw [hc, List.length_cons, add_ofNat_add, Nat.add_comm]; rfl
      · rw [chainData_cons, List.length_append, hd]; omega
    · rename_i hg
      exact ⟨[], _, rfl, rfl, by simp, by simp, by simp, by simpa using hg, by simp⟩

/-- `tcp_shrink_zc_segment` on a zero-copy segment of the layout and an ACK inside it: it drops
the fragments below the ACK and hides the acknowledged bytes of the one it falls in. -/
theorem tcpShrinkZcSegment_exact {optlen : U32} {s : TcpSeg} (hs : TxChainOk optlen s)
    (hz : s.zerocopy = true) (hA : AckWithin (seqOff s.seqno ackno) s.len.toNat) :
    ∃ s' n, tcpShrinkZcSegment s ackno = some (s', n) ∧ Shrunk optlen ackno s s' n := by
  obtain ⟨hchain, htot, ⟨q0, qs0, hp0, -⟩, -⟩ := id hs
  simp only [hz, if_true, Nat.zero_add] at htot
  have hdl : (chainData s.p).length = s.len.toNat := hchain.totLen_eq.symm.trans htot
  obtain ⟨w, v, hv, hpv, hseq, hl, hc, hstop, hbelow⟩ := zcWalk_exact hA s.p s.seqno s.len 0 hchain
    (by rw [hp0]; exact List.cons_ne_nil _ _) (by rw [seqOff_self, Nat.zero_add, hdl])
  rw [seqOff_self, Nat.sub_zero] at hbelow
  obtain ⟨hq, ht, hcur⟩ : ChainOk (v.first :: v.cur) := ChainOk.of_append (hpv ▸ hchain)
  have hd := Pbuf.data_length hq
  have hsplit : chainData s.p = chainData w ++ (v.first.data ++ chainData v.cur) := by
    rw [hpv, chainData_append, chainData_cons]
  have hlen : (chainData w).length + (v.first.len.toNat + (chainTotLen v.cur).toNat) = s.len.toNat := by
    rw [← hdl, hsplit, hcur.totLen_eq, ← hd]; simp
  have hm : seqOff s.seqno v.seqno = (chainData w).length := by
    rw [hseq, seqOff_base_add, BitVec.toNat_ofNat, Nat.mod_eq_of_lt (by omega)]
  have hvlen : v.len.toNat = s.len.toNat - (chainData w).length := by
    rw [hl, BitVec.toNat_sub_of_le (by rw [BitVec.le_def, BitVec.toNat_ofNat, Nat.mod_eq_of_lt (by omega)]; omega),
      BitVec.toNat_ofNat, Nat.mod_eq_of_lt (by omega)]
  have hcount : v.count = BitVec.ofNat 32 (s.p.length - (v.first :: v.cur).length) := by
    rw [hc, hpv]; simp
  have hnz : ∀ {P : Prop}, s.zerocopy = false → P := fun h => Bool.noConfusion (hz.symm.trans h)
  unfold tcpShrinkZcSegment
  rw [hv, Option.map_some']
  split
  · -- the ACK falls inside `v.first`: its acknowledged bytes are hidden
    rename_i hgt
    have ha := hA.2.1
    have hL : s.len.toNat ≤ seqOff s.seqno ackno + 2^31 := by obtain ⟨-, -, -, h | h⟩ := hA <;> omega
    rw [tcpSeqGt_near (b := s.seqno) (by omega) (by omega), hm] at hgt
    have he : seqOff s.seqno (v.seqno + v.first.len) = (chainData w).length + v.first.len.toNat := by
      rw [seqOff_add _ (by omega), hm]
    rw [← Bool.not_eq_true, tcpSeqGeq_near (b := s.seqno) (by omega), he] at hstop
    have hl' : (ackno - v.seqno).toNat = seqOff s.seqno ackno - (chainData w).length := by
      rw [← hm]; exact seqOff_rebase (by omega)
    have hle : ackno - v.seqno ≤ v.first.len := by rw [BitVec.le_def, hl']; omega
    obtain ⟨hok, -⟩ := ChainOk.headerHide ⟨hq, ht, hcur⟩ hle
    have hdata := pbufHeaderHide_data hle
    rw [pbufHeaderHide, if_pos hle] at hok hdata
    refine ⟨_, _, rfl, Shrunk.of_drop (δ := seqOff s.seqno ackno) (by omega) rfl ?_ hok ?_ ⟨_, _, rfl, hnz⟩
      hnz ?_ ⟨by rw [hpv]; simp, hcount⟩ fun _ _ => by rw [seqOff_self]; split <;> decide⟩
    · rw [BitVec.toNat_sub_of_le (show ackno - v.seqno ≤ v.len by rw [BitVec.le_def, hl', hvlen]; omega), hl',
        hvlen]
      omega
    · simp only [chainTotLen_cons, hz, if_true, Nat.zero_add]
      rw [BitVec.toNat_sub_of_le (show ackno - v.seqno ≤ v.first.totLen by rw [BitVec.le_def, hl']; omega), hl']
      omega
    · have hw0 : (chainData w).drop (seqOff s.seqno ackno) = [] := List.drop_eq_nil_of_le (by omega)
      simp only [TcpSeg.txData, hz, if_true, chainData_cons]
      rw [hdata, hsplit, hl', List.drop_append_eq_append_drop, hw0, List.nil_append,
        List.drop_append_of_le_length (by omega)]
  · -- the ACK is at the start of `v.first`
    rename_i hng
    refine ⟨_, _, rfl, Shrunk.of_drop (by omega) hm hvlen ⟨hq, ht, hcur⟩ ?_ ⟨_, _, rfl, hnz⟩ hnz ?_
      ⟨by rw [hpv]; simp, hcount⟩ fun h0 h31 => ?_⟩
    · simp only [chainTotLen_cons, hz, if_true, Nat.zero_add]
      omega
    · simp only [TcpSeg.txData, hz, if_true, hsplit, List.drop_left, chainData_cons]
    · have ha : seqOff s.seqno ackno < s.len.toNat := by obtain ⟨-, -, -, h | h⟩ := hA <;> omega
      rw [tcpSeqGt_near (b := s.seqno) (by omega) (by omega), hm] at hng
      rw [seqOff_rebase (b := s.seqno) (by omega), hm]
      split <;> omega

end Zc

/-! ## `tcp_shrink_segment` -/

theorem seqOff_add_ofNat {b y : U32} {m : Nat} (h : y.toNat + m < 2^32) :
    seqOff b (b + y + BitVec.ofNat 32 m) = y.toNat + m := by
  rw [add_ofNat_add, seqOff_base_add, BitVec.toNat_ofNat, Nat.mod_eq_of_lt h]

theorem toNat_sub_sub_ofNat {x y : U32} {m : Nat} (h : y.toNat + m ≤ x.toNat) :
    (x - y - BitVec.ofNat 32 m).toNat = x.toNat - (y.toNat + m) := by
  simp only [BitVec.toNat_sub, BitVec.toNat_ofNat]
  omega

theorem alignedLen_le_self (optlen x : U32) : (alignedLen optlen x).toNat ≤ x.toNat := by
  unfold alignedLen
  split
  · rw [BitVec.toNat_and]; exact Nat.and_le_left
  · exact le_rfl

/-- `len &= 0xfffffffc` clears the two low bits: the word and its low bits partition it. -/
private theorem toNat_and_fffffffc (x : U32) : (x &&& 0xfffffffc#32).toNat = x.toNat - x.toNat % 4 := by
  have hd : (x &&& 0xfffffffc#32) &&& (x &&& 3#32) = 0#32 := by
    rw [BitVec.and_assoc, BitVec.and_comm x 3#32, ← BitVec.and_assoc 0xfffffffc#32,
      show 0xfffffffc#32 &&& 3#32 = 0#32 by decide]
    simp
  have hx : (x &&& 0xfffffffc#32) + (x &&& 3#32) = x := by
    rw [BitVec.add_eq_or_of_and_eq_zero _ _ hd]
    apply BitVec.eq_of_toNat_eq
    simp only [BitVec.toNat_or, BitVec.toNat_and, ← Nat.and_or_distrib_left]
    exact Nat.and_pow_two_sub_one_of_lt_two_pow (n := 32) x.isLt
  have h3 : (x &&& 3#32).toNat = x.toNat % 4 := by
    rw [BitVec.toNat_and]; exact Nat.and_pow_two_sub_one_eq_mod x.toNat 2
  have := congrArg BitVec.toNat hx
  rw [BitVec.toNat_add_of_and_eq_zero hd, h3] at this
  omega

/-- The aligned cut stops short of `x` by less than 4 bytes, and not at all without options. -/
theorem alignedLen_gap (optlen x : U32) :
    x.toNat - (alignedLen optlen x).toNat < if optlen ≠ 0 then 4 else 1 := by
  unfold alignedLen
  by_cases h : optlen = 0
  · simp [h]
  · have : 0 < optlen := by rw [BitVec.lt_def]; have := mt BitVec.eq_of_toNat_eq h; simp at this ⊢; omega
    rw [if_pos this, if_pos h, toNat_and_fffffffc]
    omega

/-- The first `n ≤ len` bytes of a consistent chain are the first fragment's. -/
theorem take_chainData_cons {q : Pbuf} (r : List Pbuf) {n : Nat} (hn : n ≤ q.len.toNat)
    (hq : q.len.toNat ≤ q.payload.length) : (chainData (q :: r)).take n = q.payload.take n := by
  rw [chainData_cons, List.take_append_of_le_length (by rw [Pbuf.data_length hq]; exact hn), Pbuf.data,
    List.take_take, Nat.min_eq_left hn]

/-- "Just shrink first pbuf": `k` acknowledged bytes leave the first fragment, and the 20 header
bytes `hdr` go to its new start; past the header and options the chain holds its old bytes
without the first `k`. -/
theorem shrinkFirst_ok {first : Pbuf} {cur : List Pbuf} (hdr : List UInt8) {k optlen : U32}
    (h : ChainOk (first :: cur)) (hh : hdr.length = 20) (hk : k.toNat + 20 + optlen.toNat ≤ first.len.toNat) :
    ∀ first' : Pbuf, first' = { first with
        totLen := first.totLen - k, len := first.len - k,
        payload := hdr ++ first.payload.drop (k.toNat + 20) } →
      ChainOk (first' :: cur) ∧ first'.len.toNat = first.len.toNat - k.toNat ∧
      (chainData (first' :: cur)).take 20 = hdr ∧
      (chainData (first' :: cur)).drop (20 + optlen.toNat) =
        (chainData (first :: cur)).drop (20 + optlen.toNat + k.toNat) := by
  intro first' hf
  obtain ⟨hq, ht, hr⟩ := h
  have hlen : first'.len.toNat = first.len.toNat - k.toNat := by
    rw [hf]; exact BitVec.toNat_sub_of_le (show k.toNat ≤ first.len.toNat by omega)
  have htl : first'.totLen.toNat = first.totLen.toNat - k.toNat := by
    rw [hf]; exact BitVec.toNat_sub_of_le (show k.toNat ≤ first.totLen.toNat by omega)
  have hpl : first'.payload = hdr ++ first.payload.drop (k.toNat + 20) := by rw [hf]
  have hdata : first'.data = hdr ++ first.data.drop (k.toNat + 20) := by
    rw [Pbuf.data, hpl, hlen, List.take_append_eq_append_take, List.take_of_length_le (by omega), hh, Pbuf.data,
      List.drop_take]
    congr 2
  have hd := Pbuf.data_length hq
  refine ⟨⟨by rw [hlen, hpl, List.length_append, hh, List.length_drop]; omega, by rw [htl, hlen]; omega, hr⟩,
    hlen, ?_, ?_⟩
  · rw [chainData_cons, hdata, List.append_assoc, ← hh, List.take_left]
  · rw [chainData_cons, chainData_cons, hdata, List.append_assoc, List.drop_append_eq_append_drop,
      List.drop_eq_nil_of_le (by omega), List.nil_append, hh, Nat.add_sub_cancel_left,
      List.drop_append_of_le_length (by simp only [List.length_drop]; omega), List.drop_drop,
      List.drop_append_of_le_length (by omega)]
    congr 2; omega

/-- The bytes of the fragment the ACK falls in, as `tcp_shrink_segment` moves its payload
pointer by `k - optlen`: after `optlen` option bytes, its data without the first `k`. -/
theorem shrinkBody_drop {c : Pbuf} {k optlen : U32} (hk : k.toNat ≤ c.len.toNat) :
    ((if optlen ≤ k then c.payload.drop (k - optlen).toNat
      else List.replicate (optlen - k).toNat 0 ++ c.payload).take (c.len.toNat + optlen.toNat - k.toNat)).drop
        optlen.toNat = c.data.drop k.toNat := by
  split
  · rename_i hko
    have : optlen.toNat ≤ k.toNat := hko
    rw [BitVec.toNat_sub_of_le hko, List.take_drop, List.drop_drop, Pbuf.data,
      show k.toNat - optlen.toNat + (c.len.toNat + optlen.toNat - k.toNat) = c.len.toNat by omega,
      show k.toNat - optlen.toNat + optlen.toNat = k.toNat by omega]
  · rename_i hko
    have : k.toNat < optlen.toNat := BitVec.not_le.mp hko
    rw [BitVec.toNat_sub_of_le (show k ≤ optlen from Nat.le_of_lt this), List.take_append_eq_append_take,
      List.take_of_length_le (by simp; omega), List.drop_append_eq_append_drop, List.drop_replicate,
      List.length_replicate, Nat.sub_sub_self (Nat.le_of_lt this), Pbuf.data,
      show optlen.toNat - k.toNat - optlen.toNat = 0 by omega,
      show c.len.toNat + optlen.toNat - k.toNat - (optlen.toNat - k.toNat) = c.len.toNat by omega]
    rfl

/-- The length after the header goes in front of the bytes from `k` on, with `optlen` bytes of
headroom: `len - (k - optlen) + TCP_HLEN`, without wrapping. -/
theorem toNat_sub_sub_add {x k o : U32} (hk : k.toNat ≤ x.toNat) (hb : x.toNat + o.toNat + 20 < 2^32) :
    (x - (k - o) + tcpHlen).toNat = x.toNat + o.toNat - k.toNat + 20 := by
  have hxo : (x + o).toNat = x.toNat + o.toNat := by rw [BitVec.toNat_add, Nat.mod_eq_of_lt (by omega)]
  rw [sub_sub_eq_add_sub, BitVec.toNat_add, BitVec.toNat_sub_of_le (show k.toNat ≤ (x + o).toNat by omega), hxo]
  exact Nat.mod_eq_of_lt (by show _ + 20 < _; omega)

/-- "Add space for TCP header": the fragment the ACK falls in loses `k - optlen` bytes (or gains
`optlen - k` bytes of headroom) and the 20-byte header `hdr` is put in front; past the header and
options the chain holds the fragment's data without its first `k` bytes. -/
theorem prependHdr_ok {c : Pbuf} {rest : List Pbuf} (hdr : List UInt8) {k optlen : U32}
    (h : ChainOk (c :: rest)) (hh : hdr.length = 20) (hk : k.toNat ≤ c.len.toNat)
    (hb : c.totLen.toNat + optlen.toNat + 20 < 2^32) :
    ∀ c' : Pbuf, c' = { c with
        totLen := c.totLen - (k - optlen) + tcpHlen, len := c.len - (k - optlen) + tcpHlen,
        payload := hdr ++ if optlen ≤ k then c.payload.drop (k - optlen).toNat
          else List.replicate (optlen - k).toNat 0 ++ c.payload } →
      ChainOk (c' :: rest) ∧ c'.len.toNat = c.len.toNat + optlen.toNat - k.toNat + 20 ∧
      c'.totLen.toNat = c.totLen.toNat + optlen.toNat - k.toNat + 20 ∧
      (chainData (c' :: rest)).take 20 = hdr ∧
      (chainData (c' :: rest)).drop (20 + optlen.toNat) = c.data.drop k.toNat ++ chainData rest := by
  intro c' hc
  obtain ⟨hq, ht, hr⟩ := h
  have hlen : c'.len.toNat = c.len.toNat + optlen.toNat - k.toNat + 20 := by
    rw [hc]; exact toNat_sub_sub_add hk (by omega)
  have htot : c'.totLen.toNat = c.totLen.toNat + optlen.toNat - k.toNat + 20 := by
    rw [hc]; exact toNat_sub_sub_add (by omega) hb
  generalize hbody : (if optlen ≤ k then c.payload.drop (k - optlen).toNat
    else List.replicate (optlen - k).toNat 0 ++ c.payload) = body at hc
  have hblen : c.len.toNat + optlen.toNat - k.toNat ≤ body.length := by
    rw [← hbody]
    split
    · rename_i hko
      rw [List.length_drop, BitVec.toNat_sub_of_le hko]
      have : optlen.toNat ≤ k.toNat := hko
      omega
    · rename_i hko
      rw [List.length_append, List.length_replicate,
        BitVec.toNat_sub_of_le (show k ≤ optlen from Nat.le_of_lt (BitVec.not_le.mp hko))]
      omega
  have hpl : c'.payload = hdr ++ body := by rw [hc]
  have hdata : c'.data = hdr ++ body.take (c.len.toNat + optlen.toNat - k.toNat) := by
    rw [Pbuf.data, hpl, hlen, List.take_append_eq_append_take, hh, Nat.add_sub_cancel,
      List.take_of_length_le (show hdr.length ≤ _ by omega)]
  refine ⟨⟨by rw [hlen, hpl, List.length_append, hh]; omega, by rw [hlen, htot]; omega, hr⟩, hlen, htot, ?_, ?_⟩
  · rw [chainData_cons, hdata, List.append_assoc, ← hh, List.take_left]
  · rw [chainData_cons, hdata, List.append_assoc, List.drop_append_eq_append_drop,
      List.drop_eq_nil_of_le (show hdr.length ≤ 20 + optlen.toNat by omega), List.nil_append, hh,
      Nat.add_sub_cancel_left, List.drop_append_of_le_length (by simp only [List.length_take]; omega), ← hbody,
      shrinkBody_drop hk]

section Regular
variable {b ackno : U32} {t : Nat}

/-- The `while (cur_p)` loop of `tcp_shrink_segment` on a consistent chain ending `t` bytes after
`b`, from a start at or below the ACK (or half the space past it, with nothing left): it unlinks
the fragments `w`, moving the start, the length and the first fragment's `tot_len` by their
bytes, and stops, if it stops on a fragment, on the one the ACK falls inside; if it runs off the
chain, it ends at or below the ACK or half the space past it. -/
theorem shrinkWalk_exact (hA : AckWithin (seqOff b ackno) t) :
    ∀ (cur : List Pbuf) (seqno len : U32) (first : Pbuf) (count : U32), ChainOk cur →
      seqOff b seqno + (chainData cur).length = t →
      (seqOff b seqno ≤ seqOff b ackno ∨ seqOff b seqno = seqOff b ackno + 2^31) →
      ∃ w r, cur = w ++ r ∧
        shrinkWalk ackno seqno len first count cur =
          ⟨seqno + BitVec.ofNat 32 (chainData w).length, len - BitVec.ofNat 32 (chainData w).length,
            { first with totLen := first.totLen - BitVec.ofNat 32 (chainData w).length },
            count + BitVec.ofNat 32 w.length, r⟩ ∧
        (∀ c rest, r = c :: rest → seqOff b seqno + (chainData w).length ≤ seqOff b ackno ∧
          seqOff b ackno < seqOff b seqno + (chainData w).length + c.len.toNat) ∧
        (r = [] → t ≤ seqOff b ackno ∨ t = seqOff b ackno + 2^31)
  | [], seqno, len, first, count, _, ht, hinv =>
    ⟨[], [], rfl, by cases first; simp [shrinkWalk], (fun _ _ h => nomatch h), fun _ => by simpa [← ht] using hinv⟩
  | c :: rest, seqno, len, first, count, hp, ht, hinv => by
    obtain ⟨hc, -, hrest⟩ := hp
    have hd := Pbuf.data_length hc
    have ⟨_, ha, ht32, hin⟩ := hA
    simp only [chainData_cons, List.length_append, hd] at ht
    have he : seqOff b (seqno + c.len) = seqOff b seqno + c.len.toNat := seqOff_add _ (by omega)
    have hgt := tcpSeqGt_near (b := b) (x := seqno + c.len) (y := ackno) (by rw [he]; omega)
      (by rw [he]; omega)
    rw [he] at hgt
    unfold shrinkWalk
    split
    · -- `c` ends past the ACK: the walk stops at it
      rename_i hg
      have := hgt.mp hg
      exact ⟨[], c :: rest, rfl, by cases first; simp, (fun c' rest' h => by cases h; simp; omega),
        fun h => nomatch h⟩
    · rename_i hg
      obtain ⟨w, r, hw, hv, hstop, hrun⟩ := shrinkWalk_exact hA rest (seqno + c.len) (len - c.len)
        { first with totLen := first.totLen - c.len } (count + 1) hrest (by rw [he]; omega)
        (by rw [he]; rw [hgt] at hg; omega)
      refine ⟨c :: w, r, by rw [hw]; rfl, ?_, fun c' rest' h => ?_, hrun⟩
      · rw [hv]
        simp only [chainData_cons, List.length_append, List.length_cons, hd, add_ofNat_add, sub_ofNat_add]
        rw [Nat.add_comm w.length 1]; rfl
      · have := hstop c' rest' h
        rw [he] at this
        simp only [chainData_cons, List.length_append, hd]
        omega

end Regular

/-! The three results of `tcp_shrink_segment`, each from a consistent copied segment. -/

section Results
variable {optlen ackno : U32} {s : TcpSeg} {first : Pbuf}

/-- The `TCP_HLEN` bytes read from a first fragment that holds them. -/
theorem take_pad_of_le {P : List UInt8} (h : 20 ≤ P.length) : (P ++ List.replicate 20 0).take 20 = P.take 20 :=
  List.take_append_of_le_length h

/-- The ACK inside the first fragment: `k` bytes cut there. -/
theorem Shrunk.of_first {k : U32} {cur : List Pbuf} (hs : TxChainOk optlen s) (hz : s.zerocopy = false)
    (hp : s.p = first :: cur) (hk : k.toNat + 20 + optlen.toNat ≤ first.len.toNat)
    (hreach : 0 < s.len.toNat → s.len.toNat ≤ 2^31 →
      seqOff (s.seqno + k) ackno < if s.zerocopy = false ∧ optlen ≠ 0 then 4 else 1) :
    Shrunk optlen ackno s { s with
      len := s.len - k, seqno := s.seqno + k, tcphdr := { s.tcphdr with seqno := s.seqno + k },
      p := { first with
        totLen := first.totLen - k, len := first.len - k,
        payload := setHdrSeqno (s.seqno + k) ((first.payload ++ List.replicate 20 0).take 20) ++
          first.payload.drop (k.toNat + 20) } :: cur } 0 := by
  obtain ⟨hchain, htot, -, -, -⟩ := hs
  rw [hp] at hchain htot
  simp only [hz, Bool.false_eq_true, if_false, chainTotLen_cons] at htot
  have ht := hchain.2.1
  have hpad := take_pad_of_le (P := first.payload) (by have := hchain.1; omega)
  obtain ⟨hok, hlen, hhd, hdat⟩ :=
    shrinkFirst_ok (setHdrSeqno (s.seqno + k) ((first.payload ++ List.replicate 20 0).take 20)) hchain (by simp) hk _ rfl
  refine Shrunk.of_drop (δ := k.toNat) (by omega) (seqOff_base_add _)
    (BitVec.toNat_sub_of_le (show k.toNat ≤ s.len.toNat by omega)) hok ?_ ⟨_, _, rfl, fun _ => by rw [hlen]; omega⟩
    (fun _ => by rw [hhd, hp, hpad, take_chainData_cons _ (by omega) hchain.1]) ?_ ⟨by simp [hp], by simp [hp]⟩ hreach
  · simp only [chainTotLen_cons, hz, Bool.false_eq_true, if_false]
    rw [BitVec.toNat_sub_of_le (show k.toNat ≤ first.totLen.toNat by omega)]
    omega
  · simp only [hz, Bool.false_eq_true, if_false, TcpSeg.txData, hp, hdat, List.drop_drop]

/-- Layout facts of a copied segment `first :: w` with `lb` payload bytes in `first`: the later
fragments hold the rest of the payload, and the header is the first fragment's 20 bytes. -/
theorem TxChainOk.split {lb : U32} {w : List Pbuf} (hs : TxChainOk optlen s) (hz : s.zerocopy = false)
    (hp : s.p = first :: w) (hlb : lb.toNat = first.len.toNat - optlen.toNat - 20) :
    ChainOk (first :: w) ∧ 20 + optlen.toNat ≤ first.len.toNat ∧
      (chainData w).length + lb.toNat = s.len.toNat ∧ 20 + optlen.toNat + s.len.toNat < 2^32 ∧
      (chainData s.p).take 20 = first.payload.take 20 ∧ 20 ≤ first.payload.length ∧
      ∀ m, (s.txData optlen).drop (lb.toNat + m) = (chainData w).drop m := by
  obtain ⟨hchain, htot, ⟨_, _, hp', hfirst⟩, -, -⟩ := hs
  rw [hp] at hchain htot hp'
  cases hp'
  simp only [hz, Bool.false_eq_true, if_false, chainTotLen_cons] at htot
  have hfirst := hfirst hz
  obtain ⟨hq, ht, hw⟩ := id hchain
  have hd := Pbuf.data_length hq
  refine ⟨hchain, hfirst, by rw [← hw.totLen_eq]; omega, by rw [← htot]; exact first.totLen.isLt,
    by rw [hp]; exact take_chainData_cons _ (by omega) hq, by omega, fun m => ?_⟩
  rw [TcpSeg.txData, hz, if_neg Bool.false_ne_true, List.drop_drop, hp, chainData_cons,
    show 20 + optlen.toNat + (lb.toNat + m) = first.data.length + m by omega, List.drop_append]

/-- The walk unlinked every later fragment `w`: the first keeps the header, with the new `seqno`
written into it, and the options only. -/
theorem Shrunk.of_walked {lb : U32} {w : List Pbuf} (hs : TxChainOk optlen s) (hz : s.zerocopy = false)
    (hp : s.p = first :: w) (hlb : lb.toNat = first.len.toNat - optlen.toNat - 20)
    (hreach : 0 < s.len.toNat → s.len.toNat ≤ 2^31 →
      seqOff (s.seqno + lb + BitVec.ofNat 32 (chainData w).length) ackno <
        if s.zerocopy = false ∧ optlen ≠ 0 then 4 else 1) :
    Shrunk optlen ackno s { s with
      seqno := s.seqno + lb + BitVec.ofNat 32 (chainData w).length,
      len := s.len - lb - BitVec.ofNat 32 (chainData w).length,
      tcphdr := { s.tcphdr with seqno := s.seqno + lb + BitVec.ofNat 32 (chainData w).length },
      p := [{ first with
        totLen := first.totLen - lb - BitVec.ofNat 32 (chainData w).length, len := tcpHlen + optlen,
        payload := setHdrSeqno (s.seqno + lb + BitVec.ofNat 32 (chainData w).length) first.payload }] }
      (0 + BitVec.ofNat 32 w.length) := by
  obtain ⟨⟨hq, ht, hw⟩, hfirst, hwl, hbound, htake, hpl20, hdrop⟩ := hs.split hz hp hlb
  have h20 : (tcpHlen : U32).toNat = 20 := rfl
  have hwd := hw.totLen_eq
  generalize hσ : s.seqno + lb + BitVec.ofNat 32 (chainData w).length = σ at hreach ⊢
  generalize hf0 : ({ first with
    totLen := first.totLen - lb - BitVec.ofNat 32 (chainData w).length, len := tcpHlen + optlen,
    payload := setHdrSeqno σ first.payload } : Pbuf) = f0
  have hf0p : f0.payload = setHdrSeqno σ first.payload := by rw [← hf0]
  have hf0l : f0.len.toNat = 20 + optlen.toNat := by
    rw [← hf0]; simp only [BitVec.toNat_add, h20]; omega
  have hf0t : f0.totLen.toNat = 20 + optlen.toNat := by
    rw [← hf0]; dsimp only; rw [toNat_sub_sub_ofNat (by omega)]; omega
  have hch : ChainOk [f0] := ⟨by rw [hf0l, hf0p, setHdrSeqno_length]; omega, by rw [hf0t, hf0l]; rfl, trivial⟩
  have hd0 : (chainData [f0]).length = 20 + optlen.toNat := by rw [← hch.totLen_eq]; exact hf0t
  refine Shrunk.of_drop (δ := lb.toNat + (chainData w).length) ?_ ?_ ?_ hch ?_ ?_ ?_ ?_ ?_ hreach
  · omega
  · rw [← hσ]; exact seqOff_add_ofNat (by omega)
  · exact toNat_sub_sub_ofNat (by omega)
  · simp only [chainTotLen_cons, hz, Bool.false_eq_true, if_false, hf0t]; omega
  · exact ⟨_, _, rfl, fun _ => hf0l.ge⟩
  · exact fun _ => by rw [htake, take_chainData_cons (q := f0) [] (by omega) hch.1, hf0p, take_setHdrSeqno _ (by omega)]
  · simp only [hz, Bool.false_eq_true, if_false, hdrop, List.drop_length]
    exact List.drop_eq_nil_of_le hd0.le
  · exact ⟨by simp [hp], by simp [hp]⟩

/-- The ACK inside a later fragment `c`: the fragments `w` before it and the first are unlinked,
and the header, with the new `seqno` written into it, is put in front of `c`'s bytes from `k` on. -/
theorem Shrunk.of_cut {lb k : U32} {c : Pbuf} {w rest : List Pbuf} (hs : TxChainOk optlen s)
    (hz : s.zerocopy = false) (hp : s.p = first :: (w ++ c :: rest))
    (hlb : lb.toNat = first.len.toNat - optlen.toNat - 20) (hk : k.toNat ≤ c.len.toNat)
    (hreach : 0 < s.len.toNat → s.len.toNat ≤ 2^31 →
      seqOff (s.seqno + lb + BitVec.ofNat 32 (chainData w).length + k) ackno <
        if s.zerocopy = false ∧ optlen ≠ 0 then 4 else 1) :
    Shrunk optlen ackno s { s with
      seqno := s.seqno + lb + BitVec.ofNat 32 (chainData w).length + k,
      len := s.len - lb - BitVec.ofNat 32 (chainData w).length - k,
      tcphdr := { s.tcphdr with seqno := s.seqno + lb + BitVec.ofNat 32 (chainData w).length + k },
      p := { c with
        totLen := c.totLen - (k - optlen) + tcpHlen, len := c.len - (k - optlen) + tcpHlen,
        payload := setHdrSeqno (s.seqno + lb + BitVec.ofNat 32 (chainData w).length + k)
            ((first.payload ++ List.replicate 20 0).take 20) ++
          if optlen ≤ k then c.payload.drop (k - optlen).toNat
          else List.replicate (optlen - k).toNat 0 ++ c.payload } :: rest }
      (0 + BitVec.ofNat 32 w.length + 1) := by
  obtain ⟨⟨hq, -, hcur⟩, hfirst, hwl, hbound, htake, hpl20, hdrop⟩ := hs.split hz hp hlb
  have hcr : ChainOk (c :: rest) := ChainOk.of_append hcur
  have hcd : (chainData (c :: rest)).length = c.totLen.toNat := hcr.totLen_eq.symm
  have hct := hcr.2.1
  rw [chainData_append] at hwl hdrop
  rw [List.length_append] at hwl
  obtain ⟨hok, hlen, htot, hhd, hdat⟩ := prependHdr_ok
    (setHdrSeqno (s.seqno + lb + BitVec.ofNat 32 (chainData w).length + k) ((first.payload ++ List.replicate 20 0).take 20))
    hcr (by simp) hk
    (show c.totLen.toNat + optlen.toNat + 20 < 2^32 by omega) _ rfl
  refine Shrunk.of_drop (δ := lb.toNat + (chainData w).length + k.toNat) ?_ ?_ ?_ hok ?_ ?_ ?_ ?_ ?_ hreach
  · omega
  · rw [seqOff_add _ (by rw [seqOff_add_ofNat (by omega)]; omega), seqOff_add_ofNat (by omega)]
  · rw [BitVec.toNat_sub, toNat_sub_sub_ofNat (by omega)]; omega
  · simp only [chainTotLen_cons, hz, Bool.false_eq_true, if_false, htot]; omega
  · exact ⟨_, _, rfl, fun _ => by rw [hlen]; omega⟩
  · exact fun _ => by rw [hhd, htake, take_pad_of_le hpl20]
  · simp only [hz, Bool.false_eq_true, if_false, hdat]
    rw [Nat.add_assoc, hdrop, List.drop_append, chainData_cons,
      List.drop_append_of_le_length (by rw [Pbuf.data_length hcr.1]; exact hk)]
  · exact ⟨by simp [hp]; omega, by simp [hp]; bv_omega⟩

end Results

section Regular
variable {b ackno : U32} {t : Nat}

/-- `tcp_shrink_segment` on a copied segment of the layout and an ACK inside it: whichever of its
three paths it takes, it cuts an acknowledged prefix off the payload, with the header in front of
the new first fragment, and on a segment of at most 2^31 bytes it cuts up to `ackno`, rounded down
to 4 bytes when options are sent. -/
theorem tcpShrinkSegment_exact {pcb : Pcb} {s : TcpSeg} (hs : TxChainOk (tcpOptLength pcb.flags.timestamp) s)
    (hz : s.zerocopy = false) (hA : AckWithin (seqOff s.seqno ackno) s.len.toNat) :
    ∃ s' n, tcpShrinkSegment pcb s ackno = some (s', n) ∧
      Shrunk (tcpOptLength pcb.flags.timestamp) ackno s s' n := by
  obtain ⟨hchain, htot, ⟨first, cur, hp, hfirst⟩, hhdr, hfield⟩ := id hs
  have hfirst := hfirst hz
  unfold tcpShrinkSegment
  rw [hp]
  dsimp only
  generalize tcpOptLength pcb.flags.timestamp = optlen at hs hfirst htot ⊢
  rw [hp] at hchain htot
  simp only [hz, Bool.false_eq_true, if_false, chainTotLen_cons] at htot
  have hcurd := hchain.2.2.totLen_eq
  have ht := hchain.2.1
  have ⟨_, ha, _, hin⟩ := hA
  -- the ACK lies inside a non-empty segment of at most 2^31 bytes, less than 2^31 before its end
  have hin' : 0 < s.len.toNat → s.len.toNat ≤ 2^31 → seqOff s.seqno ackno < s.len.toNat := fun h0 _ => by
    omega
  -- `l`: the payload bytes of the first fragment, after the header and the options
  have hl : (first.len - optlen - tcpHlen).toNat = first.len.toNat - optlen.toNat - 20 := by
    simp only [BitVec.toNat_sub, show (tcpHlen : U32).toNat = 20 from rfl]; omega
  have hx : seqOff s.seqno (s.seqno + first.len - optlen - tcpHlen) = first.len.toNat - optlen.toNat - 20 := by
    rw [add_sub_assoc, add_sub_assoc, seqOff_base_add, hl]
  have hgt := tcpSeqGt_near (b := s.seqno) (x := s.seqno + first.len - optlen - tcpHlen) (y := ackno)
    (by rw [hx]; omega) (by rw [hx]; omega)
  rw [hx] at hgt
  split
  · -- the ACK falls inside the first fragment
    rename_i hg
    rw [hgt] at hg
    have hk := alignedLen_le_self optlen (ackno - s.seqno)
    refine ⟨_, _, rfl, Shrunk.of_first hs hz hp (by simp only [seqOff] at hg; omega) fun _ _ => ?_⟩
    simp only [hz, true_and]
    rw [seqOff_rebase (b := s.seqno) (by rw [seqOff_base_add]; exact hk), seqOff_base_add]
    exact alignedLen_gap optlen (ackno - s.seqno)
  · rename_i hg
    rw [hgt] at hg
    rcases cur with _ | ⟨c0, cs⟩
    · -- a single fragment and the ACK at the boundary of the sequence space: nothing is cut
      refine ⟨s, 0, rfl, hs, rfl, rfl, by rw [← hhdr], fun _ => ?_, rfl, by simp, by simp, fun h0 h31 => ?_⟩
      · rw [setHdrSeqno_of_field (by rw [List.length_take, hp, chainData_cons, chainData_nil, List.append_nil,
          Pbuf.data_length hchain.1]; omega) (by rw [seqnoField_take]; exact hfield hz)]
      · simp [chainTotLen] at ht
        have := hin' h0 h31
        omega
    · -- the header is cut back to `TCP_HLEN + optlen` and the walk unlinks what the ACK covers
      rw [sub_right_comm first.len tcpHlen optlen]
      generalize first.len - optlen - tcpHlen = lb at hl ⊢
      obtain ⟨w, r, hw, hv, hstop, hrun⟩ := shrinkWalk_exact hA (c0 :: cs) (s.seqno + lb) (s.len - lb)
        { first with totLen := first.totLen - lb, len := tcpHlen + optlen } 0 hchain.2.2
        (by rw [seqOff_base_add, hl]; omega) (by rw [seqOff_base_add, hl]; omega)
      rw [hv]
      rcases r with _ | ⟨c, rest⟩
      · rw [List.append_nil] at hw
        dsimp only
        refine ⟨_, _, rfl, Shrunk.of_walked hs hz (hw ▸ hp) hl fun h0 h31 => ?_⟩
        have := hrun rfl
        have := hin' h0 h31
        omega
      · dsimp only
        obtain ⟨hstop1, hstop2⟩ := hstop c rest rfl
        rw [seqOff_base_add, hl] at hstop1 hstop2
        have hvs : seqOff s.seqno (s.seqno + lb + BitVec.ofNat 32 (chainData w).length) =
            lb.toNat + (chainData w).length := by
          have := congrArg List.length (congrArg chainData hw)
          rw [chainData_append, List.length_append, chainData_cons, List.length_append] at this
          exact seqOff_add_ofNat (by omega)
        have hka : (ackno - (s.seqno + lb + BitVec.ofNat 32 (chainData w).length)).toNat =
            seqOff s.seqno ackno - (lb.toNat + (chainData w).length) := by
          rw [← hvs]; exact seqOff_rebase (by rw [hvs]; omega)
        have hk := alignedLen_le_self optlen (ackno - (s.seqno + lb + BitVec.ofNat 32 (chainData w).length))
        have hgap := alignedLen_gap optlen (ackno - (s.seqno + lb + BitVec.ofNat 32 (chainData w).length))
        rw [hka] at hk hgap
        refine ⟨_, _, rfl, Shrunk.of_cut hs hz (hw ▸ hp) hl (by omega) fun _ _ => ?_⟩
        simp only [hz, true_and]
        rw [seqOff_rebase (b := s.seqno) (by rw [seqOff_add _ (by omega), hvs]; omega),
          seqOff_add _ (by omega), hvs]
        generalize (if optlen ≠ 0 then 4 else 1) = B at hgap ⊢
        omega

end Regular

/-! ## Both shrinkers -/

theorem segment_shrinkers_exact (pcb : Pcb) (s : TcpSeg) (ackno : U32)
    (hs : TxChainOk (tcpOptLength pcb.flags.timestamp) s)
    (hlt : tcpSeqLt s.seqno ackno = true) (hin : tcpSeqLt ackno (s.seqno + s.len) = true) :
    ∃ s' n, (if s.zerocopy then tcpShrinkZcSegment s ackno else tcpShrinkSegment pcb s ackno) = some (s', n) ∧
      Shrunk (tcpOptLength pcb.flags.timestamp) ackno s s' n := by
  have hA := AckWithin.of_tcpSeqLt hlt hin
  cases hz : s.zerocopy
  · rw [if_neg Bool.false_ne_true]; exact tcpShrinkSegment_exact hs hz hA
  · rw [if_pos rfl]; exact tcpShrinkZcSegment_exact hs hz hA

/-- A copied segment sent with timestamps (12 option bytes): its header carrying 1000, two
payload bytes in the first fragment after the header and options, then fragments of six and
eight bytes. -/
def sampleShrinkSeg : TcpSeg :=
  { p := [⟨[0, 0, 0, 0, 0, 0, 3, 232] ++ List.replicate 24 0 ++ [1, 2], 34, 48, false⟩,
      ⟨[3, 4, 5, 6, 7, 8], 6, 14, false⟩, ⟨[9, 10, 11, 12, 13, 14, 15, 16], 8, 8, false⟩],
    tcphdr := (dataIn 1000 500 { ack := true } 16).tcphdr, seqno := 1000, len := 16,
    tcpFlags := { ack := true } }

/-- The established connection of the samples, with timestamps on. -/
def sampleTsPcb : Pcb := { sampleEstPcb with flags := { timestamp := true } }

/-- An ACK for 1013 falls inside the third fragment: the walk unlinks the first two and the
header, now carrying 1012, goes in front of the third, rounded down to 1012 with eight bytes of
headroom. -/
theorem segment_shrinkers_exact_sample :
    (tcpShrinkSegment sampleTsPcb sampleShrinkSeg 1013).map
        (fun r => (r.1.seqno, (chainData r.1.p).take 8, r.1.txData 12, r.2)) =
      some (1012, [0, 0, 0, 0, 0, 0, 3, 244], [13, 14, 15, 16], 2) ∧
    ∃ s' n, (if sampleShrinkSeg.zerocopy then tcpShrinkZcSegment sampleShrinkSeg 1013
      else tcpShrinkSegment sampleTsPcb sampleShrinkSeg 1013) = some (s', n) ∧
      Shrunk (tcpOptLength sampleTsPcb.flags.timestamp) 1013 sampleShrinkSeg s' n :=
  ⟨by decide, segment_shrinkers_exact sampleTsPcb sampleShrinkSeg 1013
    ⟨by decide, by decide, ⟨_, _, rfl, fun _ => by decide⟩, rfl, fun _ => by decide⟩ (by decide) (by decide)⟩

end XlioTcp
