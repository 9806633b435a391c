import Mathlib.Algebra.Order.Ring.Nat
import XlioTcp.Shrink

/-! `ack_partial_or_whole_segment` against its specification: the head segments a cumulative
ACK covers leave the queue, the one it falls inside is trimmed (unless it carries FIN) to a
start between its old start and the ACK with the same end, and `snd_queuelen` moves with the
fragments the queue gives back. -/
namespace XlioTcp

/-- `ackno` covers `s`: it is ahead of the start, by at least `TCP_SEGLEN(s)`. -/
def AckCovers (ackno : U32) (s : TcpSeg) : Prop :=
  0 < seqOff s.seqno ackno ∧ seqOff s.seqno ackno < 2^31 ∧ s.seglen.toNat ≤ seqOff s.seqno ackno

/-- `ackno` falls strictly inside `s`. -/
def AckStraddles (ackno : U32) (s : TcpSeg) : Prop :=
  0 < seqOff s.seqno ackno ∧ seqOff s.seqno ackno < s.seglen.toNat

instance (ackno : U32) (s : TcpSeg) : Decidable (AckCovers ackno s) :=
  inferInstanceAs (Decidable (_ ∧ _))

instance (ackno : U32) (s : TcpSeg) : Decidable (AckStraddles ackno s) :=
  inferInstanceAs (Decidable (_ ∧ _))

/-- A queued transmit segment as `tcp_write` and `tcp_enqueue_flags` build it. A copied
segment's first fragment starts with the 20-byte header and `optlen` option bytes; a zero-copy
segment's fragments hold payload only. A SYN carries no payload, and a segment spans less than
half the sequence space. -/
structure TxSegOk (optlen : U32) (s : TcpSeg) : Prop where
  lens : (s.p.map (·.len.toNat)).sum = s.len.toNat + if s.zerocopy then 0 else 20 + optlen.toNat
  head : s.zerocopy = false → ∃ q qs, s.p = q :: qs ∧ 20 + optlen.toNat ≤ q.len.toNat
  synEmpty : s.tcpFlags.syn = true → s.len = 0
  short : s.len.toNat < 2^31 - 1

/-- `s'` is `s` trimmed from the front by `ackno`: the same end and flags, and a start between
the old start and `ackno`, exactly `ackno` when `exact`. -/
structure TrimmedTo (exact : Bool) (ackno : U32) (s s' : TcpSeg) : Prop where
  sameEnd : s'.seqno + s'.seglen = s.seqno + s.seglen
  flags : s'.tcpFlags = s.tcpFlags
  start_le : seqOff s.seqno s'.seqno ≤ seqOff s.seqno ackno
  start_eq : exact = true → s'.seqno = ackno

/-- The fragments a queue holds, as `snd_queuelen` counts them. -/
def queueClen (q : List TcpSeg) : U32 := (q.map fun s => pbufClen s.p).sum

/-- What is left of a queue whose head `ackno` does not cover: the head trimmed when `ackno`
falls inside it and it carries no FIN, the rest untouched. Exact trimming for zero-copy
segments and without the timestamp option (`ts`). -/
def HeadTrimmed (ts : Bool) (ackno : U32) : List TcpSeg → List TcpSeg → Prop
  | [], q' => q' = []
  | s :: r, q' =>
    if AckStraddles ackno s ∧ s.tcpFlags.fin = false then
      ∃ s', q' = s' :: r ∧ TrimmedTo (s.zerocopy || !ts) ackno s s'
    else q' = s :: r

@[simp] theorem queueClen_cons (s : TcpSeg) (q : List TcpSeg) :
    queueClen (s :: q) = pbufClen s.p + queueClen q := by
  simp [queueClen]

theorem tcpOptLength_toNat (ts : Bool) : (tcpOptLength ts).toNat = if ts then 12 else 0 := by
  cases ts <;> rfl

private theorem alignedLen_le (optlen x : U32) : (alignedLen optlen x).toNat ≤ x.toNat := by
  unfold alignedLen
  split
  · rw [BitVec.toNat_and]; exact Nat.and_le_left
  · exact le_rfl

/-- A shrunk chain: the fragments `w` and the old first fragment `y` freed, `z` kept (as `x`). -/
private theorem clen_shrunk (x y z : Pbuf) (w r : List Pbuf) :
    pbufClen (x :: r) + (0 + BitVec.ofNat 32 w.length + 1) = pbufClen (y :: (w ++ z :: r)) := by
  simp only [pbufClen, List.length_cons, List.length_append, BitVec.ofNat_add]
  bv_omega

private theorem clen_shrunk_zc (x z : Pbuf) (w r : List Pbuf) :
    pbufClen (x :: r) + (0 + BitVec.ofNat 32 w.length) = pbufClen (w ++ z :: r) := by
  simp only [pbufClen, List.length_cons, List.length_append, BitVec.ofNat_add]
  bv_omega

namespace TxSegOk
variable {optlen ackno : U32} {s : TcpSeg}

theorem seglen_toNat (h : TxSegOk optlen s) :
    s.seglen.toNat = s.len.toNat + if s.tcpFlags.fin || s.tcpFlags.syn then 1 else 0 := by
  have := h.short
  unfold TcpSeg.seglen
  split <;> simp [BitVec.toNat_add]
  omega

/-- The loop guard of `ack_partial_or_whole_segment`, on a segment of the layout. -/
theorem guard_covers (ackno : U32) (h : TxSegOk optlen s) :
    (tcpSeqGt ackno s.seqno && !tcpSeqLt ackno (s.seqno + s.seglen)) = decide (AckCovers ackno s) := by
  have hl := h.seglen_toNat
  have := h.short
  rw [Bool.eq_iff_iff]
  simp only [Bool.and_eq_true, Bool.not_eq_true', tcpSeqGt_iff, decide_eq_true_eq, AckCovers,
    seqOff, ← Bool.not_eq_true, tcpSeqLt_iff, BitVec.toNat_sub, BitVec.toNat_add]
  split at hl <;> omega

theorem guard_straddles (ackno : U32) (h : TxSegOk optlen s) :
    (tcpSeqGt ackno s.seqno && tcpSeqLt ackno (s.seqno + s.seglen)) = decide (AckStraddles ackno s) := by
  have hl := h.seglen_toNat
  have := h.short
  rw [Bool.eq_iff_iff]
  simp only [Bool.and_eq_true, tcpSeqGt_iff, decide_eq_true_eq, AckStraddles, seqOff,
    tcpSeqLt_iff, BitVec.toNat_sub, BitVec.toNat_add]
  split at hl <;> omega

/-- A straddled segment without FIN has `ackno` strictly inside its payload: a SYN's
pseudo-byte has no payload before it. -/
theorem ack_inside_payload (h : TxSegOk optlen s) (hst : AckStraddles ackno s)
    (hfin : s.tcpFlags.fin = false) : seqOff s.seqno ackno < s.len.toNat := by
  have hl := h.seglen_toNat
  obtain ⟨h0, h1⟩ := hst
  cases hsyn : s.tcpFlags.syn
  · simp_all
  · have := h.synEmpty hsyn
    simp_all

end TxSegOk

section Walks
variable (ackno b : U32)

/-- The loop of `tcp_shrink_segment`, with offsets from `b` below half the sequence space:
it frees a prefix of the fragments, each ending at or before `ackno`, and stops at the first
one that ends past it. -/
theorem shrinkWalk_spec (hA : seqOff b ackno < 2^31) :
    ∀ (cur : List Pbuf) (seqno len : U32) (first : Pbuf) (count : U32),
      seqOff b seqno + (cur.map (·.len.toNat)).sum < 2^31 → seqOff b seqno ≤ seqOff b ackno →
      ∃ walked, cur = walked ++ (shrinkWalk ackno seqno len first count cur).cur ∧
        (shrinkWalk ackno seqno len first count cur).seqno +
          (shrinkWalk ackno seqno len first count cur).len = seqno + len ∧
        (shrinkWalk ackno seqno len first count cur).count = count + BitVec.ofNat 32 walked.length ∧
        seqOff b (shrinkWalk ackno seqno len first count cur).seqno =
          seqOff b seqno + (walked.map (·.len.toNat)).sum ∧
        seqOff b (shrinkWalk ackno seqno len first count cur).seqno ≤ seqOff b ackno ∧
        ∀ c rest, (shrinkWalk ackno seqno len first count cur).cur = c :: rest →
          seqOff b ackno < seqOff b (shrinkWalk ackno seqno len first count cur).seqno + c.len.toNat
  | [], _, _, _, _, _, hle => ⟨[], rfl, rfl, by simp [shrinkWalk], by simp [shrinkWalk], hle,
      fun _ _ h => nomatch h⟩
  | c :: rest, seqno, len, first, count, hs, hle => by
    simp only [List.map_cons, List.sum_cons] at hs
    have hoff : seqOff b (seqno + c.len) = seqOff b seqno + c.len.toNat := seqOff_add _ (by omega)
    have hgt := tcpSeqGt_iff_off (b := b) (x := seqno + c.len) (y := ackno) (by omega) hA
    rw [hoff] at hgt
    unfold shrinkWalk
    split
    · rename_i hin
      exact ⟨[], by simp, rfl, by simp, by simp, hle, fun c' r' h => by
        obtain ⟨rfl, rfl⟩ := List.cons.inj h; exact hgt.mp hin⟩
    · rename_i hng
      obtain ⟨w, hw, hsum, hcount, hoffw, hvle, hlast⟩ :=
        shrinkWalk_spec hA rest (seqno + c.len) (len - c.len) { first with totLen := first.totLen - c.len }
          (count + 1) (by omega) (by rw [hoff]; exact Nat.le_of_not_lt fun hc => hng (hgt.mpr hc))
      refine ⟨c :: w, congrArg (c :: ·) hw, by rw [hsum]; bv_omega, ?_, ?_, hvle, hlast⟩
      · rw [hcount, List.length_cons, BitVec.ofNat_add]; bv_omega
      · rw [hoffw, hoff]; simp; omega

/-- The loop of `tcp_shrink_zc_segment`: while `ackno` lies inside the remaining fragments, it
drops those that end at or before `ackno` and stops at the one `ackno` falls inside. -/
theorem zcWalk_spec (hA : seqOff b ackno < 2^31) :
    ∀ (p : List Pbuf) (seqno len count : U32),
      seqOff b seqno ≤ seqOff b ackno → seqOff b ackno < seqOff b seqno + (p.map (·.len.toNat)).sum →
      seqOff b seqno + (p.map (·.len.toNat)).sum < 2^31 →
      ∃ v walked, zcWalk ackno seqno len count p = some v ∧ p = walked ++ v.first :: v.cur ∧
        v.seqno + v.len = seqno + len ∧ v.count = count + BitVec.ofNat 32 walked.length ∧
        seqOff b v.seqno ≤ seqOff b ackno ∧ seqOff b ackno < seqOff b v.seqno + v.first.len.toNat
  | [], _, _, _, hle, hlt, _ => by simp only [List.map_nil, List.sum_nil, Nat.add_zero] at hlt; omega
  | q :: qs, seqno, len, count, hle, hlt, hs => by
    simp only [List.map_cons, List.sum_cons] at hlt hs
    have hoff : seqOff b (seqno + q.len) = seqOff b seqno + q.len.toNat := seqOff_add _ (by omega)
    have hgeq := tcpSeqGeq_iff_off (b := b) (x := ackno) (y := seqno + q.len) hA (by omega)
    rw [hoff] at hgeq
    unfold zcWalk
    split
    · obtain ⟨v, w, hv, hp, hsum, hcount, h1, h2⟩ :=
        zcWalk_spec hA qs (seqno + q.len) (len - q.len) (count + 1)
          (by rw [hoff]; exact hgeq.mp ‹_›) (by omega) (by omega)
      refine ⟨v, q :: w, hv, by simp [hp], by rw [hsum]; bv_omega, ?_, h1, h2⟩
      rw [hcount, List.length_cons, BitVec.ofNat_add]; bv_omega
    · rename_i hng
      refine ⟨_, [], rfl, rfl, rfl, by simp, hle, ?_⟩
      show seqOff b ackno < seqOff b seqno + q.len.toNat
      exact Nat.lt_of_not_le fun hc => hng (hgeq.mpr hc)

end Walks

private theorem trim_end (a k n f : U32) : a + k + (n - k + f) = a + (n + f) := by
  rw [BitVec.add_assoc, ← BitVec.add_assoc k, BitVec.add_comm k, BitVec.sub_add_cancel]

private theorem trim_end_zc (a b n f : U32) : a + (n - (a - b) + f) = b + (n + f) := by
  rw [sub_sub_eq_add_sub, sub_add_eq_add_sub, add_sub_cancel]; ac_rfl

section Shrinkers
variable {pcb : Pcb} {s : TcpSeg} {ackno : U32}

/-- `tcp_shrink_segment` on a straddled segment of the layout: it frees whole fragments below
the new start, keeps the end, and starts at `ackno` exactly when no option is sent. -/
theorem tcpShrinkSegment_spec (h : TxSegOk (tcpOptLength pcb.flags.timestamp) s)
    (hz : s.zerocopy = false) (hst : AckStraddles ackno s) (hfin : s.tcpFlags.fin = false) :
    ∃ s' n, tcpShrinkSegment pcb s ackno = some (s', n) ∧ pbufClen s'.p + n = pbufClen s.p ∧
      TrimmedTo (!pcb.flags.timestamp) ackno s s' := by
  obtain ⟨first, cur, hp, hfirst⟩ := h.head hz
  have hA := h.ack_inside_payload hst hfin
  have hA0 := hst.1
  have hlens := h.lens
  have hshort := h.short
  have hopt := tcpOptLength_toNat pcb.flags.timestamp
  simp only [hp, hz, List.map_cons, List.sum_cons, Bool.false_eq_true, if_false] at hlens
  set optlen := tcpOptLength pcb.flags.timestamp
  -- `l`: the payload bytes of the first fragment, after the header and the options
  set l := first.len - optlen - tcpHlen with hl_def
  have hl : l.toNat = first.len.toNat - optlen.toNat - 20 := by
    rw [hl_def]; clear_value optlen l; simp only [tcpHlen]; bv_omega
  have hlx : s.seqno + first.len - optlen - tcpHlen = s.seqno + l := by
    rw [hl_def, add_sub_assoc, add_sub_assoc]
  have hgt := tcpSeqGt_iff_off (b := s.seqno) (x := s.seqno + l) (y := ackno)
    (by rw [seqOff_base_add]; omega) (by omega)
  rw [seqOff_base_add] at hgt
  have hexact : pcb.flags.timestamp = false → ∀ x, alignedLen optlen x = x := by
    intro hts x; simp only [optlen, hts]; rfl
  unfold tcpShrinkSegment
  rw [hp]
  dsimp only
  rw [hlx]
  split
  · -- the ACK falls inside the first fragment
    have hla := alignedLen_le optlen (ackno - s.seqno)
    refine ⟨_, 0, rfl, by simp [pbufClen], ⟨trim_end _ _ _ _, rfl, ?_, fun hts => ?_⟩⟩
    · rw [seqOff_base_add]; exact hla
    · simp only [Bool.not_eq_true'] at hts
      simp [hexact hts]
  · rename_i hout
    have hlA : l.toNat ≤ seqOff s.seqno ackno := Nat.le_of_not_lt fun hc => hout (hgt.mpr hc)
    rcases cur with _ | ⟨c0, cs⟩
    · simp at hlens; omega
    · have hl' : first.len - tcpHlen - optlen = l := sub_right_comm _ _ _
      simp only [hl']
      obtain ⟨w, hw, hsum, hcount, hoffw, hvA, hlast⟩ :=
        shrinkWalk_spec ackno s.seqno (by omega) (c0 :: cs) (s.seqno + l) (s.len - l)
          { first with totLen := first.totLen - l, len := tcpHlen + optlen } 0
          (by rw [seqOff_base_add]; simp only [List.map_cons, List.sum_cons] at hlens ⊢; omega)
          (by rw [seqOff_base_add]; exact hlA)
      generalize shrinkWalk ackno (s.seqno + l) (s.len - l)
        { first with totLen := first.totLen - l, len := tcpHlen + optlen } 0 (c0 :: cs) = v
        at hw hsum hcount hoffw hvA hlast
      rw [seqOff_base_add] at hoffw
      have hsumw := congrArg (fun p : List Pbuf => (p.map (·.len.toNat)).sum) hw
      simp only [List.map_append, List.sum_append] at hsumw
      have hend : v.seqno + v.len = s.seqno + s.len := by rw [hsum]; simp
      match hv : v.cur with
      | [] =>
        simp only [hv, List.map_nil, List.sum_nil, Nat.add_zero] at hsumw
        simp only [List.map_cons, List.sum_cons] at hlens hsumw
        omega
      | c :: rest =>
        dsimp only
        have hrebase : (ackno - v.seqno).toNat = seqOff s.seqno ackno - seqOff s.seqno v.seqno :=
          seqOff_rebase (b := s.seqno) hvA
        have hk := alignedLen_le (tcpOptLength pcb.flags.timestamp) (ackno - v.seqno)
        refine ⟨_, _, rfl, ?_, ⟨?_, rfl, ?_, fun hts => ?_⟩⟩
        · rw [hw, hv, hcount]; exact clen_shrunk _ _ _ _ _
        · simp only [TcpSeg.seglen]
          rw [trim_end, ← BitVec.add_assoc, hend, BitVec.add_assoc]
        · rw [seqOff_add _ (by omega)]
          omega
        · simp only [Bool.not_eq_true'] at hts
          simp [hexact hts]

/-- `tcp_shrink_zc_segment` on a straddled zero-copy segment: the new start is `ackno`. -/
theorem tcpShrinkZcSegment_spec {optlen : U32} (h : TxSegOk optlen s) (hz : s.zerocopy = true)
    (hst : AckStraddles ackno s) (hfin : s.tcpFlags.fin = false) :
    ∃ s' n, tcpShrinkZcSegment s ackno = some (s', n) ∧ pbufClen s'.p + n = pbufClen s.p ∧
      TrimmedTo true ackno s s' := by
  have hA := h.ack_inside_payload hst hfin
  have hlens := h.lens
  have hshort := h.short
  simp only [hz, if_true, Nat.add_zero] at hlens
  obtain ⟨v, w, hv, hp, hsum, hcount, hle, hlt⟩ :=
    zcWalk_spec ackno s.seqno (by omega) s.p s.seqno s.len 0 (by simp) (by simp; omega)
      (by simp; omega)
  unfold tcpShrinkZcSegment
  rw [hv, Option.map_some']
  have hclen : pbufClen (v.first :: v.cur) + v.count = pbufClen s.p := by
    rw [hp, hcount]; exact clen_shrunk_zc _ _ _ _
  split
  · refine ⟨_, _, rfl, hclen, ⟨?_, rfl, le_rfl, fun _ => rfl⟩⟩
    simp only [TcpSeg.seglen]
    rw [trim_end_zc, ← BitVec.add_assoc, hsum, BitVec.add_assoc]
  · rename_i hng
    have heq : v.seqno = ackno := by
      rw [eq_iff_off (b := s.seqno)]
      have := (tcpSeqGt_iff_off (b := s.seqno) (x := ackno) (y := v.seqno) (by omega)
        (by omega)).not.mp hng
      omega
    refine ⟨_, _, rfl, hclen, ⟨?_, rfl, by rw [heq], fun _ => heq⟩⟩
    simp only [TcpSeg.seglen, ← BitVec.add_assoc, hsum]

end Shrinkers

private theorem acked_step (a : U32) (fin : Bool) (c : Nat) :
    (if a ≠ 0 && fin then a - 1 else a) -
        BitVec.ofNat 32 (min (if a ≠ 0 && fin then a - 1 else a).toNat c) =
      a - BitVec.ofNat 32 (min a.toNat (c + if fin then 1 else 0)) := by
  cases fin
  · simp
  · by_cases ha : a = 0
    · simp [ha]
    · have h0 : a.toNat ≠ 0 := fun h => ha (BitVec.eq_of_toNat_eq (by simpa using h))
      have h1 : (a - 1).toNat = a.toNat - 1 := by
        have := a.isLt; rw [BitVec.toNat_sub]; simp; omega
      apply BitVec.eq_of_toNat_eq
      simp only [ha, ne_eq, not_false_eq_true, decide_True, Bool.and_self, if_true, h1,
        BitVec.toNat_sub, BitVec.toNat_ofNat]
      omega

/-- `ack_partial_or_whole_segment` on a queue of segments of the layout: the head segments
`ackno` covers are removed (FIN-bearing ones take a byte off a non-zero `acked`), the next one
is trimmed if `ackno` falls inside it, and `snd_queuelen` minus the queue's fragments is
unchanged. No other field of the PCB moves. -/
theorem ackPartialOrWholeSegment_spec (pcb : Pcb) (ackno : U32) (q : List TcpSeg)
    (hq : ∀ s ∈ q, TxSegOk (tcpOptLength pcb.flags.timestamp) s) :
    ∃ pcb' q', ackPartialOrWholeSegment pcb ackno q = some (pcb', q') ∧
      HeadTrimmed pcb.flags.timestamp ackno (q.dropWhile fun s => decide (AckCovers ackno s)) q' ∧
      pcb' = { pcb with
        acked := pcb.acked - BitVec.ofNat 32 (min pcb.acked.toNat
          ((q.takeWhile fun s => decide (AckCovers ackno s)).countP (·.tcpFlags.fin))),
        sndQueuelen := pcb'.sndQueuelen } ∧
      pcb'.sndQueuelen - queueClen q' = pcb.sndQueuelen - queueClen q := by
  induction q generalizing pcb with
  | nil => exact ⟨pcb, [], rfl, rfl, by simp, rfl⟩
  | cons s r ih =>
    have hs := hq s (List.mem_cons_self s r)
    have hcov := hs.guard_covers ackno
    have hstr := hs.guard_straddles ackno
    unfold ackPartialOrWholeSegment
    by_cases hgt : tcpSeqGt ackno s.seqno
    · by_cases hlt : tcpSeqLt ackno (s.seqno + s.seglen)
      · -- `ackno` falls inside the head
        have hc : ¬ AckCovers ackno s := by simpa [hgt, hlt] using hcov
        have hst : AckStraddles ackno s := by simpa [hgt, hlt] using hstr.symm
        simp only [hgt, hlt, if_true, List.dropWhile_cons, List.takeWhile_cons, hc,
          decide_False, List.countP_nil, Nat.min_zero]
        cases hfin : s.tcpFlags.fin
        · simp only [hfin, Bool.false_eq_true, if_false, and_self, if_true]
          cases hz : s.zerocopy
          · obtain ⟨s', n, hsh, hn, htr⟩ := tcpShrinkSegment_spec hs hz hst hfin
            refine ⟨{ pcb with sndQueuelen := pcb.sndQueuelen - n }, s' :: r, by simp [hz, hsh], ?_,
              by simp, ?_⟩
            · rw [HeadTrimmed, if_pos ⟨hst, hfin⟩]; exact ⟨s', rfl, by simpa [hz] using htr⟩
            simp only [queueClen_cons]
            rw [← hn]; bv_omega
          · obtain ⟨s', n, hsh, hn, htr⟩ := tcpShrinkZcSegment_spec hs hz hst hfin
            refine ⟨{ pcb with sndQueuelen := pcb.sndQueuelen - n }, s' :: r, by simp [hz, hsh], ?_,
              by simp, ?_⟩
            · rw [HeadTrimmed, if_pos ⟨hst, hfin⟩]; exact ⟨s', rfl, by simpa [hz] using htr⟩
            simp only [queueClen_cons]
            rw [← hn]; bv_omega
        · simp only [hfin, if_true]
          exact ⟨pcb, s :: r, rfl, by simp [HeadTrimmed, hfin], by simp, rfl⟩
      · -- `ackno` covers the head: it goes, and the loop goes on
        have hc : AckCovers ackno s := by simpa [hgt, hlt] using hcov.symm
        obtain ⟨pcb', q', hrun, htrim, hpcb, hacc⟩ :=
          ih { pcb with
            acked := if pcb.acked ≠ 0 && s.tcpFlags.fin then pcb.acked - 1 else pcb.acked,
            sndQueuelen := pcb.sndQueuelen - pbufClen s.p } (fun s' h => hq s' (List.mem_cons_of_mem s h))
        simp only [hgt, hlt, if_true, Bool.false_eq_true, if_false, List.dropWhile_cons,
          List.takeWhile_cons, hc, decide_True, List.countP_cons]
        refine ⟨pcb', q', hrun, htrim, ?_, ?_⟩
        · rw [hpcb]
          simp only [acked_step]
        · rw [hacc, queueClen_cons]; bv_omega
    · -- `ackno` is not past the head's start
      have hc : ¬ AckCovers ackno s := by simpa [hgt] using hcov
      have hst : ¬ AckStraddles ackno s := by simpa [hgt] using hstr
      simp only [hgt, if_false, Bool.false_eq_true, List.dropWhile_cons, hc, decide_False,
        List.takeWhile_cons]
      exact ⟨pcb, s :: r, rfl, by simp [HeadTrimmed, hst], by simp, rfl⟩

/-- A copied segment of five payload bytes at 1000, behind its 20-byte header, on the queue of
a connection without timestamps. -/
def sampleTxSeg : TcpSeg where
  p := [{ payload := List.replicate 25 0, len := 25, totLen := 25 }]
  tcphdr := { src := 0, dest := 0, seqno := 1000, ackno := 0, hdrlen := 5, flags := {}, wnd := 0 }
  seqno := 1000
  len := 5
  tcpFlags := {}

def sampleTxPcb : Pcb :=
  { state := .established, rcvNxt := 0, rcvWnd := 0, rcvWndMax := 0, sndNxt := 1005,
    lastack := 1000, unacked := [sampleTxSeg] }

theorem ackPartialOrWholeSegment_spec_sample :
    (∀ s ∈ [sampleTxSeg], TxSegOk (tcpOptLength sampleTxPcb.flags.timestamp) s) ∧
    ∃ pcb' q', ackPartialOrWholeSegment sampleTxPcb 1003 [sampleTxSeg] = some (pcb', q') ∧
      HeadTrimmed sampleTxPcb.flags.timestamp 1003
        ([sampleTxSeg].dropWhile fun s => decide (AckCovers 1003 s)) q' ∧
      pcb' = { sampleTxPcb with
        acked := sampleTxPcb.acked - BitVec.ofNat 32 (min sampleTxPcb.acked.toNat
          (([sampleTxSeg].takeWhile fun s => decide (AckCovers 1003 s)).countP (·.tcpFlags.fin))),
        sndQueuelen := pcb'.sndQueuelen } ∧
      pcb'.sndQueuelen - queueClen q' = sampleTxPcb.sndQueuelen - queueClen [sampleTxSeg] :=
  have h : ∀ s ∈ [sampleTxSeg], TxSegOk (tcpOptLength sampleTxPcb.flags.timestamp) s := by
    simp only [List.mem_singleton, forall_eq]
    exact ⟨by decide, fun _ => ⟨_, _, rfl, by decide⟩, by decide, by decide⟩
  ⟨h, ackPartialOrWholeSegment_spec _ 1003 _ h⟩

end XlioTcp
