import XlioTcp.Delivery
import XlioTcp.Reset

/-! Order of the out-of-order queue across `tcp_receive`: `OoseqWf` adds to `OoseqFrom` that no
entry carries SYN and each ends less than `2^31` after `rcv_nxt`, and every step of the reassembly
keeps it. -/
namespace XlioTcp

/-- `OoseqFrom`, with what the placement of a segment needs of the entries besides: none
carries SYN, and each ends less than `2^31` after `r`. -/
def OoseqWf (r : U32) (lo : Nat) (q : List TcpSeg) : Prop :=
  OoseqFrom r lo q ∧ ∀ e ∈ q, e.tcphdr.flags.syn = false ∧ seqOff r e.start + e.len.toNat < 2^31

instance (r : U32) (lo : Nat) (q : List TcpSeg) : Decidable (OoseqWf r lo q) :=
  inferInstanceAs (Decidable (_ ∧ _))

section Order
variable {r : U32}

theorem OoseqFrom.mono {lo lo' : Nat} : ∀ {q : List TcpSeg}, OoseqFrom r lo q → lo' ≤ lo → OoseqFrom r lo' q
  | [], _, _ => trivial
  | _ :: _, ⟨h1, h⟩, hle => ⟨hle.trans h1, h⟩

theorem OoseqFrom.tail {lo : Nat} {e : TcpSeg} {q : List TcpSeg} (h : OoseqFrom r lo (e :: q)) :
    OoseqFrom r lo q :=
  h.2.2.2.2.mono (h.1.trans (Nat.le_add_right _ _))

namespace OoseqWf
variable {lo : Nat} {e : TcpSeg} {q : List TcpSeg}

theorem mono {lo' : Nat} (h : OoseqWf r lo q) (hle : lo' ≤ lo) : OoseqWf r lo' q := ⟨h.1.mono hle, h.2⟩

theorem tail (h : OoseqWf r lo (e :: q)) : OoseqWf r lo q :=
  ⟨h.1.tail, fun x hx => h.2 x (List.mem_cons_of_mem _ hx)⟩

theorem head_start (h : OoseqWf r lo (e :: q)) : OoseqWf r (seqOff r e.start) (e :: q) := ⟨⟨le_rfl, h.1.2⟩, h.2⟩

theorem head (h : OoseqWf r lo (e :: q)) : e.tcphdr.flags.syn = false ∧ seqOff r e.start + e.len.toNat < 2^31 :=
  h.2 e (List.mem_cons_self _ _)

/-- The entries after `e` start at or after its end. -/
theorem rest (h : OoseqWf r lo (e :: q)) : OoseqWf r (seqOff r e.start + e.len.toNat) q :=
  ⟨h.1.2.2.2.2, fun x hx => h.2 x (List.mem_cons_of_mem _ hx)⟩

theorem cons (hlo : lo ≤ seqOff r e.start) (hs : e.tcphdr.flags.syn = false)
    (h31 : seqOff r e.start + e.len.toNat < 2^31) (ht : 0 < e.tcplen.toNat) (hf : e.tcphdr.flags.fin = false)
    (hq : OoseqWf r (seqOff r e.start + e.len.toNat) q) : OoseqWf r lo (e :: q) :=
  ⟨⟨hlo, by omega, ht, fun h => absurd (hf.symm.trans h) Bool.false_ne_true, hq.1⟩, by
    rintro x (_ | ⟨_, hx⟩)
    exacts [⟨hs, h31⟩, hq.2 x hx]⟩

theorem singleton (hlo : lo ≤ seqOff r e.start) (hs : e.tcphdr.flags.syn = false)
    (h31 : seqOff r e.start + e.len.toNat < 2^31) (ht : 0 < e.tcplen.toNat) : OoseqWf r lo [e] :=
  ⟨⟨hlo, by omega, ht, fun _ => rfl, trivial⟩, by simpa [hs] using h31⟩

theorem nil : OoseqWf r lo [] := ⟨trivial, fun _ h => absurd h (List.not_mem_nil _)⟩

end OoseqWf

/-- Putting back the entry before `next`, in front of a queue that starts at or after `next`. -/
theorem OoseqWf.prepend {lo : Nat} {prev : Option TcpSeg} {next : TcpSeg} {rest q : List TcpSeg}
    (h : OoseqWf r lo (prev.toList ++ next :: rest)) (hq : OoseqWf r (seqOff r next.start) q) :
    OoseqWf r lo (prev.toList ++ q) := by
  cases prev with
  | none => exact hq.mono h.1.1
  | some pv =>
    have hf : pv.tcphdr.flags.fin = false := Bool.eq_false_iff.mpr fun hf => nomatch h.1.2.2.2.1 hf
    exact .cons h.1.1 h.head.1 h.head.2 h.1.2.2.1 hf (hq.mono h.rest.1.1)

/-- The queue read from a later base `s`, at or before the lower bound. -/
theorem OoseqWf.rebase {s : U32} {lo : Nat} : ∀ {q : List TcpSeg}, OoseqWf r lo q → seqOff r s ≤ lo →
    OoseqWf s (lo - seqOff r s) q
  | [], _, _ => .nil
  | e :: q, h, hk => by
    have hs : seqOff s e.start = seqOff r e.start - seqOff r s := seqOff_rebase (hk.trans h.1.1)
    have ih := OoseqWf.rebase h.rest (hk.trans (h.1.1.trans (Nat.le_add_right _ _)))
    have hb := h.head
    have h1 := h.1.1
    refine ⟨⟨by omega, by omega, h.1.2.2.1, h.1.2.2.2.1, (ih.mono (by omega)).1⟩, ?_⟩
    rintro x (_ | ⟨_, hx⟩)
    · exact ⟨hb.1, by omega⟩
    · exact ih.2 x hx

/-- A suffix of the queue is well formed from its first entry on. -/
theorem OoseqWf.suffix {lo : Nat} {n : TcpSeg} {rest : List TcpSeg} :
    ∀ {q : List TcpSeg}, OoseqWf r lo q → n :: rest <:+ q → OoseqWf r (seqOff r n.start) (n :: rest)
  | [], _, hs => absurd hs.length_le (by simp)
  | e :: q, h, hs => by
    rcases List.suffix_cons_iff.mp hs with he | hs
    · rw [← he] at h; exact h.head_start
    · exact OoseqWf.suffix h.tail hs

theorem OoseqFrom.le_start : ∀ {lo : Nat} {q : List TcpSeg}, OoseqFrom r lo q → ∀ m ∈ q, lo ≤ seqOff r m.start
  | _, [], _, _, hm => absurd hm (List.not_mem_nil _)
  | _, _ :: _, h, m, hm => by
    rcases List.mem_cons.mp hm with rfl | hm
    · exact h.1
    · exact h.1.trans ((Nat.le_add_right _ _).trans (OoseqFrom.le_start h.2.2.2.2 m hm))

/-- An entry without SYN or FIN occupies as many sequence numbers as it has bytes. -/
theorem TcpSeg.tcplen_eq_len {e : TcpSeg} (hs : e.tcphdr.flags.syn = false) (hf : e.tcphdr.flags.fin = false) :
    e.tcplen = e.len := by
  simp [TcpSeg.tcplen, hs, hf]

theorem TcpSeg.tcplen_pos_of_fin {e : TcpSeg} (hf : e.tcphdr.flags.fin = true) (hl : e.len.toNat < 2^31) :
    0 < e.tcplen.toNat := by
  simp only [TcpSeg.tcplen, hf, Bool.true_or, if_true, BitVec.toNat_add]
  have : (1 : U32).toNat = 1 := rfl
  omega

/-- An entry of the queue other than the last has bytes: it carries no FIN, and no SYN. -/
theorem TcpSeg.len_pos {e : TcpSeg} (hs : e.tcphdr.flags.syn = false) (hf : e.tcphdr.flags.fin = false)
    (ht : 0 < e.tcplen.toNat) : 0 < e.len.toNat := by
  rwa [TcpSeg.tcplen_eq_len hs hf] at ht

/-- A difference of two sequence numbers, read as offsets from a base below both. -/
theorem sub_toNat_off {x y : U32} (h : seqOff r x ≤ seqOff r y) : (y - x).toNat = seqOff r y - seqOff r x :=
  seqOff_rebase h

/-- An entry without FIN, cut at a point `x` past its start, in front of a queue from `x` on. -/
theorem OoseqWf.cut {lo : Nat} {e : TcpSeg} {s x : U32} (p : List Pbuf) {q : List TcpSeg}
    (hst : e.start = s) (hlo : lo ≤ seqOff r s) (hs : e.tcphdr.flags.syn = false)
    (hf : e.tcphdr.flags.fin = false) (hx : seqOff r s < seqOff r x) (hx31 : seqOff r x < 2^31)
    (hq : OoseqWf r (seqOff r x) q) : OoseqWf r lo ({ e with len := x - s, p := p } :: q) := by
  subst hst
  have hlen : (x - e.start).toNat = seqOff r x - seqOff r e.start := sub_toNat_off hx.le
  refine .cons hlo hs (show seqOff r e.start + (x - e.start).toNat < 2^31 by omega) ?_ hf
    (hq.mono (show seqOff r e.start + (x - e.start).toNat ≤ _ by omega))
  rw [TcpSeg.tcplen_eq_len (e := { e with len := x - e.start, p := p }) hs hf]
  show 0 < (x - e.start).toNat
  omega

/-- A property of `ooseq` entries that the placement of a segment keeps: it survives the cut of an
entry without FIN to its first bytes, the FIN taken off a segment, and a FIN a segment takes over
from an entry it covers. -/
structure EntryClosed (r : U32) (P : TcpSeg → Prop) : Prop where
  cut {e : TcpSeg} {n : U32} {p : List Pbuf} : P e → e.tcphdr.flags.fin = false → n.toNat ≤ e.len.toNat →
    pbufRealloc e.p n = some p → P { e with len := n, p := p }
  setFin_false {e : TcpSeg} : P e → P (e.setFin false)
  setFin_true {e m : TcpSeg} : P e → P m → m.tcphdr.flags.fin = true →
    seqOff r m.start + m.len.toNat ≤ seqOff r e.start + e.len.toNat → P (e.setFin true)

theorem EntryClosed.trivial (r : U32) : EntryClosed r fun _ => True :=
  ⟨fun _ _ _ _ => True.intro, fun _ => True.intro, fun _ _ _ _ => True.intro⟩

/-- The loop of `tcp_oos_insert_segment` frees a prefix of entries the segment covers. What it
leaves is a well-formed queue whose first entry starts after the segment (given that every entry
starts after it or is covered by it); the segment only takes over a FIN, from the last entry, and
keeps any property of entries the placement keeps. -/
theorem oosDropCovered_spec {P : TcpSeg → Prop} (hP : EntryClosed r P) (seqno : U32) {E : Nat} (hE : E < 2^31) :
    ∀ (cseg : TcpSeg) (q : List TcpSeg) {lo : Nat}, cseg.start = seqno → seqOff r seqno + cseg.len.toNat = E →
      OoseqWf r lo q →
      (∀ m ∈ q, seqOff r seqno < seqOff r m.start ∨ seqOff r m.start + m.len.toNat ≤ E) →
      P cseg → (∀ m ∈ q, P m) →
      ((oosDropCovered seqno cseg q).1 = cseg ∨
          (oosDropCovered seqno cseg q).1 = cseg.setFin true ∧ (oosDropCovered seqno cseg q).2 = []) ∧
        OoseqWf r lo (oosDropCovered seqno cseg q).2 ∧
        (∀ n ∈ (oosDropCovered seqno cseg q).2.head?, seqOff r seqno < seqOff r n.start) ∧
        P (oosDropCovered seqno cseg q).1 ∧ ∀ m ∈ (oosDropCovered seqno cseg q).2, P m
  | _, [], _, _, _, hq, _, hc, hms => ⟨.inl rfl, hq, (fun _ h => by cases h), hc, hms⟩
  | cseg, m :: rest, lo, hst, hcE, hq, hcov, hc, hms => by
    have hm := hq.head
    have hcovered : tcpSeqGeq (seqno + cseg.len) (m.start + m.len) = true ↔
        seqOff r m.start + m.len.toNat ≤ E := by
      rw [tcpSeqGeq_iff_off (b := r) (by rw [seqOff_add _ (by omega)]; omega)
        (by rw [seqOff_add _ (by omega)]; omega), seqOff_add _ (by omega), seqOff_add _ (by omega), hcE]
    have hrest : ∀ x ∈ rest, P x := fun x hx => hms x (List.mem_cons_of_mem _ hx)
    unfold oosDropCovered
    split_ifs with hc' hf
    · have hfin := hP.setFin_true hc (hms m (List.mem_cons_self _ _)) hf
        (by rw [hst]; have := hcovered.mp hc'; omega)
      rw [hq.1.2.2.2.1 hf]
      exact ⟨.inr ⟨rfl, rfl⟩, .nil, (fun _ h => by cases h), hfin, fun _ h => by cases h⟩
    · exact oosDropCovered_spec hP seqno hE cseg rest hst hcE hq.tail
        (fun x hx => hcov x (List.mem_cons_of_mem _ hx)) hc hrest
    · refine ⟨.inl rfl, hq, ?_, hc, hms⟩
      simp only [List.head?_cons, Option.mem_def, Option.some.injEq, forall_eq']
      exact (hcov m (List.mem_cons_self _ _)).resolve_right fun h => hc' (hcovered.mpr h)

/-- `tcp_oos_insert_segment` keeps the queue well formed: the segment goes in front, freed of
nothing but the FIN it may take over, or cut where the first entry it does not cover starts. -/
theorem tcpOosInsertSegment_wf {P : TcpSeg → Prop} (hP : EntryClosed r P) {seqno : U32} {cseg : TcpSeg}
    {q q' : List TcpSeg} {lo lo' : Nat} (hstart : cseg.start = seqno) (hlo : lo ≤ seqOff r seqno)
    (hE : seqOff r seqno + cseg.len.toNat < 2^31) (hs : cseg.tcphdr.flags.syn = false)
    (ht : 0 < cseg.tcplen.toNat) (hq : OoseqWf r lo' q)
    (hcov : ∀ m ∈ q, seqOff r seqno < seqOff r m.start ∨
      seqOff r m.start + m.len.toNat ≤ seqOff r seqno + cseg.len.toNat)
    (hc : P cseg) (hms : ∀ m ∈ q, P m)
    (h : tcpOosInsertSegment seqno cseg q = some q') : OoseqWf r lo q' ∧ ∀ e ∈ q', P e := by
  subst hstart
  unfold tcpOosInsertSegment at h
  split_ifs at h with hf
  · cases h; exact ⟨.singleton hlo hs hE ht, List.forall_mem_singleton.mpr hc⟩
  have hf' : cseg.tcphdr.flags.fin = false := by simpa using hf
  obtain ⟨hc₁, hq₂, hn, hP₁, hP₂⟩ := oosDropCovered_spec hP cseg.start hE cseg q rfl rfl hq hcov hc hms
  generalize oosDropCovered cseg.start cseg q = res at h hc₁ hq₂ hn hP₁ hP₂
  obtain ⟨cseg₁, _ | ⟨n, rest⟩⟩ := res
  · cases h
    refine ⟨?_, List.forall_mem_singleton.mpr hP₁⟩
    rcases hc₁ with rfl | ⟨rfl, -⟩
    · exact .singleton hlo hs hE ht
    · exact .singleton hlo hs hE (TcpSeg.tcplen_pos_of_fin rfl (show cseg.len.toNat < 2^31 by omega))
  obtain rfl : cseg = cseg₁ := (hc₁.resolve_right fun h => nomatch h.2).symm
  have hsn : seqOff r cseg.start < seqOff r n.start := hn n rfl
  have hn31 := hq₂.head.2
  have hend : seqOff r (cseg.start + cseg.len) = seqOff r cseg.start + cseg.len.toNat := seqOff_add _ (by omega)
  dsimp only at h
  split_ifs at h with hg
  all_goals rw [tcpSeqGt_iff_off (b := r) (by omega) (by omega), hend] at hg
  · obtain ⟨p, hp, rfl⟩ := Option.map_eq_some'.mp h
    refine ⟨.cut p rfl hlo hs hf' hsn (by omega) hq₂.head_start, List.forall_mem_cons.mpr ⟨?_, hP₂⟩⟩
    exact hP.cut hP₁ hf' (by rw [sub_toNat_off hsn.le]; omega) hp
  · cases h
    exact ⟨.cons hlo hs hE ht hf' (hq₂.head_start.mono (by omega)), List.forall_mem_cons.mpr ⟨hP₁, hP₂⟩⟩

end Order

/-- An out-of-sequence segment inside the window `(r, right)`, as the placement receives it: its
header carries its sequence number, it starts after `r` and before `right`, ends less than
`2^31` after `r`, carries no SYN, occupies a sequence number, is under 64 KiB, and `tcplen`
counts it. -/
structure OosSeg (r right : U32) (d : InData) : Prop where
  start_eq : d.inseg.start = d.seqno
  after : 0 < seqOff r d.seqno
  before : seqOff r d.seqno < seqOff r right
  right_lt : seqOff r right < 2^31
  end_lt : seqOff r d.seqno + d.inseg.len.toNat < 2^31
  no_syn : d.inseg.tcphdr.flags.syn = false
  tcplen_pos : 0 < d.inseg.tcplen.toNat
  len_lt : d.inseg.len.toNat + 1 < 2^16
  tcplen_eq : d.tcplen = d.inseg.tcplen.setWidth 16

section Place
variable {r right : U32} {d : InData} {env : Env}

/-- `in_data->tcplen` is the payload and at most one flag byte. -/
theorem OosSeg.tcplen_le (hd : OosSeg r right d) : d.tcplen.toNat ≤ d.inseg.len.toNat + 1 := by
  have := hd.len_lt
  have h1 : (1 : U32).toNat = 1 := rfl
  have h0 : (0 : U32).toNat = 0 := rfl
  rw [hd.tcplen_eq, BitVec.toNat_setWidth, TcpSeg.tcplen, BitVec.toNat_add]
  split <;> omega

/-- Appending at the tail: the last entry is cut where the segment starts, and the segment at the
right edge of the window. -/
theorem ooseqAppend_wf {P : TcpSeg → Prop} (hP : EntryClosed r P) {next : TcpSeg} {q' : List TcpSeg} {t : U16}
    {lo : Nat} (hd : OosSeg r right d) (hn : OoseqWf r lo [next]) (hlt : seqOff r next.start < seqOff r d.seqno)
    (hPd : P d.inseg) (hPn : P next)
    (h : ooseqAppend env right d next = some (q', t)) : OoseqWf r lo q' ∧ ∀ e ∈ q', P e := by
  have hs := hd.end_lt
  have hw := hd.right_lt
  have hin := hd.start_eq
  have hb := hd.before
  have ⟨hsyn, hn31⟩ := hn.head
  unfold ooseqAppend at h
  by_cases hk : (next.tcphdr.flags.fin || !env.segCopyOk) = true
  · rw [if_pos hk] at h; cases h; exact ⟨hn, List.forall_mem_singleton.mpr hPn⟩
  rw [if_neg hk] at h
  have hfin : next.tcphdr.flags.fin = false := Bool.eq_false_iff.mpr fun hf => hk (by rw [hf, Bool.true_or])
  have htrim : ∀ (p : List Pbuf) seg, OoseqWf r (seqOff r d.seqno) [seg] →
      OoseqWf r lo [{ next with len := d.seqno - next.start, p := p }, seg] := fun p _ hseg =>
    .cut p rfl hn.1.1 hsyn hfin hlt (by omega) hseg
  have hcut : ∀ p : List Pbuf,
      OoseqWf r (seqOff r d.seqno) [{ d.inseg.setFin false with len := right - d.seqno, p := p }] := fun p =>
    .cut p hin le_rfl hd.no_syn rfl hb hw .nil
  have hwhole : OoseqWf r (seqOff r d.seqno) [d.inseg] :=
    .singleton (by rw [hin]) hd.no_syn (by rw [hin]; omega) hd.tcplen_pos
  -- the last entry is cut only when it runs past the segment's start
  have hPtrim : ∀ p, pbufRealloc next.p (d.seqno - next.start) = some p →
      seqOff r d.seqno < seqOff r next.start + next.len.toNat →
      P { next with len := d.seqno - next.start, p := p } := fun p hp hg =>
    hP.cut hPn hfin (by rw [sub_toNat_off hlt.le]; omega) hp
  -- and the segment only when it runs past the window's right edge
  have hPcut : ∀ p, tcpSeqGt (d.seqno + d.tcplen.setWidth 32) right = true →
      pbufRealloc d.inseg.p (right - d.seqno) = some p →
      P { d.inseg.setFin false with len := right - d.seqno, p := p } := fun p hc hp => by
    have hrs : seqOff d.seqno right = seqOff r right - seqOff r d.seqno := sub_toNat_off hb.le
    have ht16 := d.tcplen.isLt
    rw [tcpSeqGt_iff_off (b := d.seqno) (by rw [seqOff_base_add, BitVec.toNat_setWidth]; omega) (by omega),
      seqOff_base_add, BitVec.toNat_setWidth, Nat.mod_eq_of_lt (by omega)] at hc
    have := hd.tcplen_le
    exact hP.cut (hP.setFin_false hPd) rfl (show seqOff d.seqno right ≤ d.inseg.len.toNat by omega) hp
  dsimp only at h
  split_ifs at h with hg hc hc
  all_goals
    rw [tcpSeqGt_iff_off (b := r) (by rw [seqOff_add _ (by omega)]; omega) (by omega), seqOff_add _ (by omega)] at hg
  · obtain ⟨_, hy, h⟩ := Option.bind_eq_some.mp h
    obtain ⟨p, hp, rfl⟩ := Option.map_eq_some'.mp hy
    obtain ⟨p', hp', h⟩ := Option.bind_eq_some.mp h
    cases h
    exact ⟨htrim p _ (hcut p'),
      List.forall_mem_cons.mpr ⟨hPtrim p hp hg, List.forall_mem_singleton.mpr (hPcut p' hc hp')⟩⟩
  · obtain ⟨_, hy, h⟩ := Option.bind_eq_some.mp h
    obtain ⟨p, hp, rfl⟩ := Option.map_eq_some'.mp hy
    cases h
    exact ⟨htrim p _ hwhole, List.forall_mem_cons.mpr ⟨hPtrim p hp hg, List.forall_mem_singleton.mpr hPd⟩⟩
  all_goals
    have hkeep : ∀ seg, OoseqWf r (seqOff r d.seqno) [seg] → OoseqWf r lo [next, seg] :=
      fun _ hseg => .cons hn.1.1 hsyn hn31 hn.1.2.2.1 hfin (hseg.mono (by omega))
    obtain ⟨_, ⟨⟩, h⟩ := Option.bind_eq_some.mp h
  · obtain ⟨p, hp, h⟩ := Option.bind_eq_some.mp h
    cases h
    exact ⟨hkeep _ (hcut p), List.forall_mem_cons.mpr ⟨hPn, List.forall_mem_singleton.mpr (hPcut p hc hp)⟩⟩
  · cases h
    exact ⟨hkeep _ hwhole, List.forall_mem_cons.mpr ⟨hPn, List.forall_mem_singleton.mpr hPd⟩⟩

/-- Placing the segment on `ooseq` keeps the queue well formed, whichever branch of the loop
places it: in front of the entry it starts before, over an entry it starts at and outgrows,
between two entries (the earlier one cut where the segment starts), or after the last one. -/
theorem ooseqPlace_wf {P : TcpSeg → Prop} (hP : EntryClosed r P) (hd : OosSeg r right d) (hPd : P d.inseg) :
    ∀ (prev : Option TcpSeg) (q : List TcpSeg) {lo : Nat} {q' : List TcpSeg} {t : U16},
      ooseqPlace env right d prev q = some (q', t) → OoseqWf r lo (prev.toList ++ q) →
      (∀ e ∈ prev.toList ++ q, P e) →
      (∀ pv ∈ prev, seqOff r pv.start < seqOff r d.seqno) → (prev = none → lo ≤ seqOff r d.seqno) →
      OoseqWf r lo q' ∧ ∀ e ∈ q', P e
  | prev, [], _, _, _, h, hq, hPq, _, _ => by
    cases h; rw [List.append_nil] at hq hPq; exact ⟨hq, hPq⟩
  | prev, next :: rest, lo, q', t, h, hq, hPq, hprev, hfront => by
    have hs := hd.end_lt
    have hnq : OoseqWf r (seqOff r next.start) (next :: rest) := by
      cases prev with
      | none => exact hq.head_start
      | some pv => exact hq.rest.head_start
    have ⟨hnsyn, hn31⟩ := hnq.head
    have hPn : ∀ e ∈ next :: rest, P e := fun e he => hPq e (List.mem_append_right _ he)
    have hPpre : ∀ {q₁ : List TcpSeg}, (∀ e ∈ q₁, P e) → ∀ e ∈ prev.toList ++ q₁, P e := fun h₁ =>
      List.forall_mem_append.mpr ⟨fun e he => hPq e (List.mem_append_left _ he), h₁⟩
    -- every entry from `next` on starts at or after `next`
    have hafter : ∀ m ∈ next :: rest, seqOff r next.start ≤ seqOff r m.start := hnq.1.le_start
    have hlt : tcpSeqLt d.seqno next.start = true ↔ seqOff r d.seqno < seqOff r next.start :=
      tcpSeqLt_iff_off (by omega) (by omega)
    have hgt : tcpSeqGt d.seqno next.start = true ↔ seqOff r next.start < seqOff r d.seqno :=
      tcpSeqGt_iff_off (by omega) (by omega)
    -- inserting before `next`, once the segment starts before it
    have hins : ∀ {lo₁ : Nat} {q₁ : List TcpSeg}, lo₁ ≤ seqOff r d.seqno →
        seqOff r d.seqno < seqOff r next.start → tcpOosInsertSegment d.seqno d.inseg (next :: rest) = some q₁ → OoseqWf r lo₁ q₁ ∧ ∀ e ∈ q₁, P e :=
      fun hlo hsn hi => tcpOosInsertSegment_wf hP hd.start_eq hlo hs hd.no_syn hd.tcplen_pos hnq
        (fun m hm => .inl (hsn.trans_le (hafter m hm))) hPd hPn hi
    -- the two ways on: after the last entry, or to the next one
    have hcont : seqOff r next.start < seqOff r d.seqno → ∀ {x : Option (List TcpSeg × U16)},
        (x = (fun (q, t) => (prev.toList ++ q, t)) <$> ooseqAppend env right d next ∧ rest = [] ∨
          x = (fun (q, t) => (prev.toList ++ q, t)) <$> ooseqPlace env right d (some next) rest) →
        x = some (q', t) → OoseqWf r lo q' ∧ ∀ e ∈ q', P e := by
      rintro hsn x (⟨rfl, rfl⟩ | rfl) hx
      · obtain ⟨⟨q₁, t₁⟩, happ, he⟩ := Option.map_eq_some'.mp hx
        cases he
        have h₁ := ooseqAppend_wf hP hd hnq hsn hPd (hPn next (List.mem_cons_self _ _)) happ
        exact ⟨hq.prepend h₁.1, hPpre h₁.2⟩
      · obtain ⟨⟨q₁, t₁⟩, hrec, he⟩ := Option.map_eq_some'.mp hx
        cases he
        have h₁ := ooseqPlace_wf hP hd hPd (some next) rest hrec hnq hPn
          (fun _ h => Option.some_inj.mp h ▸ hsn) (fun h => nomatch h)
        exact ⟨hq.prepend h₁.1, hPpre h₁.2⟩
    have hne : d.seqno ≠ next.start → seqOff r d.seqno ≠ seqOff r next.start := fun h e => h (eq_iff_off.mpr e)
    unfold ooseqPlace at h
    by_cases heq : d.seqno = next.start
    · rw [if_pos heq] at h
      have hsn : seqOff r d.seqno = seqOff r next.start := congrArg _ heq
      by_cases hc : (d.inseg.len > next.len && env.segCopyOk) = true
      · rw [if_pos hc] at h
        obtain ⟨q₁, hi, he⟩ := Option.map_eq_some'.mp h
        cases he
        have hc' : next.len.toNat < d.inseg.len.toNat := by
          rw [Bool.and_eq_true, decide_eq_true_eq] at hc; exact hc.1
        -- the segment covers `next`, and every later entry starts after the segment
        have hcov : ∀ m ∈ next :: rest, seqOff r d.seqno < seqOff r m.start ∨
            seqOff r m.start + m.len.toNat ≤ seqOff r d.seqno + d.inseg.len.toNat := by
          intro m hm
          rcases List.mem_cons.mp hm with rfl | hm
          · exact .inr (by omega)
          · have h1 := hnq.rest.1.le_start m hm
            by_cases hf : next.tcphdr.flags.fin = true
            · rw [hnq.1.2.2.2.1 hf] at hm; cases hm
            · have := TcpSeg.len_pos hnsyn (by simpa using hf) hnq.1.2.2.1
              exact .inl (by omega)
        have h₁ := tcpOosInsertSegment_wf hP hd.start_eq hsn.symm.le hs hd.no_syn hd.tcplen_pos hnq hcov hPd hPn hi
        exact ⟨hq.prepend h₁.1, hPpre h₁.2⟩
      · rw [if_neg hc] at h; cases h; exact ⟨hq, hPq⟩
    rw [if_neg heq] at h
    cases prev with
    | none =>
      dsimp only at h
      by_cases hl : tcpSeqLt d.seqno next.start = true
      · rw [if_pos hl] at h
        by_cases hc : env.segCopyOk = true
        · rw [if_pos hc] at h
          obtain ⟨q₁, hi, he⟩ := Option.map_eq_some'.mp h
          cases he
          exact hins (hfront rfl) (hlt.mp hl) hi
        · rw [if_neg hc] at h; cases h; exact ⟨hq, hPq⟩
      · rw [if_neg hl] at h
        have := hne heq
        exact hcont (by rw [hlt] at hl; omega) (by split_ifs with hr; exacts [.inl ⟨rfl, hr.1⟩, .inr rfl]) h
    | some pv =>
      dsimp only at h
      have hpv : seqOff r pv.start < seqOff r d.seqno := hprev pv rfl
      have hpq : OoseqWf r lo (pv :: next :: rest) := hq
      have hPpv : P pv := hPq pv (List.mem_cons_self _ _)
      have ⟨hpsyn, hp31⟩ := hpq.head
      have hpf : pv.tcphdr.flags.fin = false := Bool.eq_false_iff.mpr fun hf => nomatch hpq.1.2.2.2.1 hf
      have hpend : seqOff r pv.start + pv.len.toNat ≤ seqOff r next.start := hpq.rest.1.1
      have hplen := TcpSeg.len_pos hpsyn hpf hpq.1.2.2.1
      have hbtw : tcpSeqBetween d.seqno (pv.start + 1) (next.start - 1) = true ↔
          seqOff r d.seqno < seqOff r next.start := by
        have h1 : (1 : U32).toNat = 1 := rfl
        have e1 : seqOff r (pv.start + 1) = seqOff r pv.start + 1 := seqOff_add 1 (by omega)
        have e2 : seqOff r (next.start - 1) = seqOff r next.start - 1 := seqOff_sub 1 (by omega)
        rw [tcpSeqBetween, Bool.and_eq_true, tcpSeqGeq_iff_off (b := r) (by omega) (by rw [e1]; omega),
          tcpSeqLeq_iff_off (b := r) (by omega) (by rw [e2]; omega), e1, e2]
        omega
      by_cases hb : tcpSeqBetween d.seqno (pv.start + 1) (next.start - 1) = true
      · rw [if_pos hb] at h
        have hsn := hbtw.mp hb
        by_cases hc : env.segCopyOk = true
        · rw [if_pos hc] at h
          -- the entry before, cut where the segment starts or whole, then the segment before `next`
          split_ifs at h with hg
          all_goals
            rw [tcpSeqGt_iff_off (b := r) (by rw [seqOff_add _ (by omega)]; omega) (by omega),
              seqOff_add _ (by omega)] at hg
          · obtain ⟨_, hy, h⟩ := Option.bind_eq_some.mp h
            obtain ⟨p, hp, rfl⟩ := Option.map_eq_some'.mp hy
            obtain ⟨q₁, hi, h⟩ := Option.bind_eq_some.mp h
            cases h
            have h₁ := hins le_rfl hsn hi
            exact ⟨.cut p rfl hpq.1.1 hpsyn hpf hpv (by omega) h₁.1, List.forall_mem_cons.mpr
              ⟨hP.cut hPpv hpf (by rw [sub_toNat_off hpv.le]; omega) hp, h₁.2⟩⟩
          · obtain ⟨_, ⟨⟩, h⟩ := Option.bind_eq_some.mp h
            obtain ⟨q₁, hi, h⟩ := Option.bind_eq_some.mp h
            cases h
            have h₁ : OoseqWf r (seqOff r pv.start + pv.len.toNat) q₁ ∧ ∀ e ∈ q₁, P e :=
              hins (by omega) hsn hi
            exact ⟨.cons hpq.1.1 hpsyn hp31 hpq.1.2.2.1 hpf h₁.1, List.forall_mem_cons.mpr ⟨hPpv, h₁.2⟩⟩
        · rw [if_neg hc] at h; cases h; exact ⟨hq, hPq⟩
      · rw [if_neg hb] at h
        have := hne heq
        exact hcont (by rw [hbtw] at hb; omega) (by split_ifs with hr; exacts [.inl ⟨rfl, hr.1⟩, .inr rfl]) h

/-- The out-of-sequence path of `tcp_receive` keeps `ooseq` well formed, with any property of
entries the placement keeps, and `rcv_nxt`. -/
theorem tcpReceiveOoseq_wf {P : TcpSeg → Prop} {c c' : Ctx} (hP : EntryClosed c.pcb.rcvNxt P)
    (hq : OoseqWf c.pcb.rcvNxt 1 c.pcb.ooseq) (hd : OosSeg c.pcb.rcvNxt (c.pcb.rcvNxt + c.pcb.rcvWnd) c.d)
    (hPd : P c.d.inseg) (hPq : ∀ e ∈ c.pcb.ooseq, P e) (h : tcpReceiveOoseq env c = some c') :
    c'.pcb.rcvNxt = c.pcb.rcvNxt ∧ OoseqWf c'.pcb.rcvNxt 1 c'.pcb.ooseq ∧ ∀ e ∈ c'.pcb.ooseq, P e := by
  simp only [tcpReceiveOoseq, Option.map_eq_map] at h
  split at h
  · cases h
    refine ⟨rfl, show OoseqWf c.pcb.rcvNxt 1 (if env.segCopyOk then [c.d.inseg] else []) ∧
      ∀ e ∈ (if env.segCopyOk then [c.d.inseg] else []), P e from ?_⟩
    split
    · exact ⟨.singleton (by rw [hd.start_eq]; exact hd.after) hd.no_syn (by rw [hd.start_eq]; exact hd.end_lt)
        hd.tcplen_pos, List.forall_mem_singleton.mpr hPd⟩
    · exact ⟨.nil, fun _ h => absurd h (List.not_mem_nil _)⟩
  · obtain ⟨⟨q, t⟩, hp, he⟩ := Option.map_eq_some'.mp h
    cases he
    exact ⟨rfl, ooseqPlace_wf hP hd hPd none _ hp hq hPq (fun _ h => nomatch h) fun _ => hd.after⟩

/-- The loop freeing the entries an in-sequence segment covers leaves a suffix of the queue. -/
theorem inseqDropCovered_suffix (seqno : U32) :
    ∀ (seg : TcpSeg) (t : U16) (q : List TcpSeg), (inseqDropCovered seqno seg t q).2.2 <:+ q
  | _, _, [] => List.suffix_rfl
  | seg, t, e :: rest => by
    unfold inseqDropCovered
    split_ifs
    · exact (inseqDropCovered_suffix seqno _ _ rest).trans (List.suffix_cons _ _)
    · exact (inseqDropCovered_suffix seqno _ _ rest).trans (List.suffix_cons _ _)
    · exact List.suffix_rfl

/-- Reconciled with `ooseq`, an in-sequence segment without SYN ends at or before the first entry
left on the queue, which is well formed from that end on; `rcv_nxt` and the sequence number stay. -/
theorem tcpTrimToOoseq_wf {c c' : Ctx} (hq : OoseqWf c.pcb.rcvNxt 1 c.pcb.ooseq)
    (hseq : c.d.seqno = c.pcb.rcvNxt) (hs : c.d.inseg.tcphdr.flags.syn = false)
    (h : tcpTrimToOoseq c = some c') :
    c'.pcb.rcvNxt = c.pcb.rcvNxt ∧ c'.d.seqno = c.d.seqno ∧ OoseqWf c.pcb.rcvNxt c'.d.tcplen.toNat c'.pcb.ooseq := by
  unfold tcpTrimToOoseq at h
  split_ifs at h with h0 hf
  · cases h; exact ⟨rfl, rfl, h0 ▸ .nil⟩
  · cases h; exact ⟨rfl, rfl, .nil⟩
  have hsuf := inseqDropCovered_suffix c.d.seqno c.d.inseg c.d.tcplen c.pcb.ooseq
  have hspec := inseqDropCovered_spec c.pcb.rcvNxt c.d.seqno c.d.inseg c.d.tcplen c.pcb.ooseq 1 le_rfl hq.1
  generalize inseqDropCovered c.d.seqno c.d.inseg c.d.tcplen c.pcb.ooseq = res at h hsuf hspec
  obtain ⟨seg, t, _ | ⟨n, rest⟩⟩ := res
  · cases h; exact ⟨rfl, rfl, .nil⟩
  obtain ⟨rfl, rfl, -⟩ := hspec.resolve_left (fun h => nomatch h)
  have hn := hq.suffix hsuf
  have hn31 := hn.head.2
  have ht := c.d.tcplen.isLt
  have hend : seqOff c.pcb.rcvNxt (c.d.seqno + c.d.tcplen.setWidth 32) = c.d.tcplen.toNat := by
    rw [hseq, seqOff_base_add, BitVec.toNat_setWidth, Nat.mod_eq_of_lt (by omega)]
  dsimp only at h
  simp only [hs, Bool.false_eq_true, if_false] at h
  split_ifs at h with hg
  · rw [tcpSeqGt_iff_off (b := c.pcb.rcvNxt) (by omega) (by omega), hend] at hg
    obtain ⟨p, -, rfl⟩ := Option.map_eq_some'.mp h
    refine ⟨rfl, rfl, hn.mono (le_of_eq ?_)⟩
    rw [TcpSeg.tcplen_eq_len (e := { c.d.inseg with len := n.start - c.d.seqno, p := p }) hs (by simpa using hf)]
    show ((n.start - c.d.seqno).setWidth 16).toNat = _
    rw [hseq, BitVec.toNat_setWidth, Nat.mod_eq_of_lt (by show seqOff c.pcb.rcvNxt n.start < _; omega)]
    rfl
  · rw [tcpSeqGt_iff_off (b := c.pcb.rcvNxt) (by omega) (by omega), hend] at hg
    cases h
    exact ⟨rfl, rfl, hn.mono (show c.d.tcplen.toNat ≤ _ by omega)⟩

/-- The drain loop keeps `ooseq` well formed around the moving `rcv_nxt`: it takes the entries
that start at `rcv_nxt`, each moving it to its end, and stops at one that starts after it. -/
theorem tcpDrainOoseq_wf : ∀ (q : List TcpSeg) (c : Ctx), OoseqWf c.pcb.rcvNxt 0 q →
    OoseqWf (tcpDrainOoseq q c).pcb.rcvNxt 1 (tcpDrainOoseq q c).pcb.ooseq
  | [], _, _ => .nil
  | e :: q, c, h => by
    have hs0 : e.start = c.pcb.rcvNxt ↔ seqOff c.pcb.rcvNxt e.start = 0 := by
      rw [eq_iff_off (b := c.pcb.rcvNxt), seqOff_self]
    unfold tcpDrainOoseq
    split
    · rename_i he
      apply tcpDrainOoseq_wf q
      show OoseqWf (c.pcb.rcvNxt + e.tcplen) 0 q
      by_cases hf : e.tcphdr.flags.fin = true
      · rw [h.1.2.2.2.1 hf]; exact .nil
      · have hk : seqOff c.pcb.rcvNxt (c.pcb.rcvNxt + e.tcplen) = e.len.toNat := by
          rw [seqOff_base_add, TcpSeg.tcplen_eq_len h.head.1 (by simpa using hf)]
        have := h.rest.rebase (s := c.pcb.rcvNxt + e.tcplen) (by rw [hk, hs0.mp he]; omega)
        rwa [hk, hs0.mp he, Nat.zero_add, Nat.sub_self] at this
    · rename_i hne
      show OoseqWf c.pcb.rcvNxt 1 (e :: q)
      have := hs0.not.mp hne
      exact ⟨⟨by omega, h.1.2⟩, h.2⟩

theorem tcpTrimToWindow_syn {c c' : Ctx} (h : tcpTrimToWindow c = some c') :
    c'.d.inseg.tcphdr.flags.syn = c.d.inseg.tcphdr.flags.syn := by
  simp only [tcpTrimToWindow, Option.map_eq_map] at h
  split_ifs at h <;> first
    | (cases h; rfl)
    | (obtain ⟨_, -, rfl⟩ := Option.map_eq_some'.mp h; rfl)

theorem tcpAckDelivered_ooseq {cfg : Config} (c : Ctx) :
    (tcpAckDelivered cfg c).pcb.rcvNxt = c.pcb.rcvNxt ∧ (tcpAckDelivered cfg c).pcb.ooseq = c.pcb.ooseq := by
  unfold tcpAckDelivered Ctx.ack; split_ifs <;> exact ⟨rfl, rfl⟩

/-- An in-sequence segment without SYN keeps `ooseq` well formed: cut to the window and to the
first entry it does not cover, it moves `rcv_nxt` to at most that entry, and the drain takes
the entries that are then in sequence. -/
theorem tcpReceiveInSeq_wf {cfg : Config} {c c' : Ctx} (hq : OoseqWf c.pcb.rcvNxt 1 c.pcb.ooseq)
    (hseq : c.d.seqno = c.pcb.rcvNxt) (hs : c.d.inseg.tcphdr.flags.syn = false)
    (h : tcpReceiveInSeq cfg c = some c') : OoseqWf c'.pcb.rcvNxt 1 c'.pcb.ooseq := by
  simp only [tcpReceiveInSeq, Option.bind_eq_bind, Option.bind_eq_some, Option.some.injEq] at h
  obtain ⟨c₁, h₁, c₂, h₂, rfl⟩ := h
  obtain ⟨e₁, s₁⟩ := tcpTrimToWindow_pcb h₁
  have hs₁ : c₁.d.inseg.tcphdr.flags.syn = false := (tcpTrimToWindow_syn h₁).trans hs
  rw [← e₁] at hq
  obtain ⟨n₂, s₂, hq₂⟩ := tcpTrimToOoseq_wf hq (by rw [s₁, hseq, e₁]) hs₁ h₂
  have hk : seqOff c₁.pcb.rcvNxt (c₂.d.seqno + c₂.d.tcplen.setWidth 32) = c₂.d.tcplen.toNat := by
    rw [s₂, s₁, hseq, ← e₁, seqOff_base_add, BitVec.toNat_setWidth,
      Nat.mod_eq_of_lt (by have := c₂.d.tcplen.isLt; omega)]
  have hq₃ : OoseqWf (tcpAcceptInSeq c₂).pcb.rcvNxt 0 (tcpAcceptInSeq c₂).pcb.ooseq := by
    have := hq₂.rebase (s := c₂.d.seqno + c₂.d.tcplen.setWidth 32) hk.le
    rwa [hk, Nat.sub_self] at this
  rw [(tcpAckDelivered_ooseq _).1, (tcpAckDelivered_ooseq _).2]
  exact tcpDrainOoseq_wf _ _ hq₃

/-- A segment as `L3_level_tcp_input` hands it to `tcp_receive` in a synchronized state: its
header carries its sequence number, it has no SYN (`tcp_process` answers a SYN there before
`tcp_receive`), it is under 64 KiB, and `tcplen` counts it. -/
structure RxSegOk (d : InData) : Prop where
  start_eq : d.inseg.start = d.seqno
  no_syn : d.inseg.tcphdr.flags.syn = false
  len_lt : d.inseg.len.toNat + 1 < 2^16
  tcplen_eq : d.tcplen = d.inseg.tcplen.setWidth 16

/-- The left edge trim keeps the segment, or moves its start to `rcv_nxt`; its SYN stays. -/
theorem tcpTrimLeftEdge_d {c c' : Ctx} (h : tcpTrimLeftEdge c = some c') :
    c'.d = c.d ∨ c'.d.seqno = c.pcb.rcvNxt ∧ c'.d.inseg.tcphdr.flags.syn = c.d.inseg.tcphdr.flags.syn := by
  simp only [tcpTrimLeftEdge, Option.map_eq_map] at h
  split_ifs at h
  · obtain ⟨_, -, rfl⟩ := Option.map_eq_some'.mp h; exact .inr ⟨rfl, rfl⟩
  · cases h; exact .inl rfl
  · cases h; exact .inl rfl

/-- A segment the window test of `tcp_receive` takes, if not at `rcv_nxt`, is one the out-of-order
placement receives. -/
theorem RxSegOk.oosSeg {p : Pcb} (hd : RxSegOk d) (hw0 : 0 < p.rcvWnd.toNat) (hw : p.rcvWnd.toNat < 2^30)
    (ht : 0 < d.tcplen.toNat) (hwin : tcpSeqBetween d.seqno p.rcvNxt (p.rcvNxt + p.rcvWnd - 1) = true)
    (hne : p.rcvNxt ≠ d.seqno) : OosSeg p.rcvNxt (p.rcvNxt + p.rcvWnd) d := by
  have h1 : (p.rcvWnd - 1).toNat = p.rcvWnd.toNat - 1 := by
    rw [BitVec.toNat_sub]; have : (1 : U32).toNat = 1 := rfl; omega
  rw [add_sub_assoc, tcpSeqBetween_window _ _ _ (by omega), h1] at hwin
  have h0 : seqOff p.rcvNxt d.seqno ≠ 0 := fun h0 => hne (eq_iff_off.mpr (by rw [h0, seqOff_self]))
  have hl := hd.len_lt
  refine ⟨hd.start_eq, by omega, by rw [seqOff_base_add]; omega, by rw [seqOff_base_add]; omega, by omega,
    hd.no_syn, ?_, hd.len_lt, hd.tcplen_eq⟩
  rw [hd.tcplen_eq, BitVec.toNat_setWidth] at ht
  exact Nat.pos_of_ne_zero fun h => by rw [h] at ht; exact absurd ht (lt_irrefl 0)

/-- What the data half does to the receive side, for a segment as `L3_level_tcp_input` hands it
on: after the left-edge trim, which keeps it, a segment at `rcv_nxt` (still without SYN) is
accepted; one ahead inside the window, untrimmed, is placed on `ooseq`; any other leaves
`rcv_nxt` and `ooseq`. -/
theorem tcpReceiveData_cases {cfg : Config} {c c' : Ctx} (hd : RxSegOk c.d) (hw0 : 0 < c.pcb.rcvWnd.toNat)
    (hw : c.pcb.rcvWnd.toNat < 2^30) (ht : 0 < c.d.tcplen.toNat) (h : tcpReceiveData cfg env c = some c') :
    ∃ c₁ : Ctx, c₁.pcb.rcvNxt = c.pcb.rcvNxt ∧ c₁.pcb.ooseq = c.pcb.ooseq ∧
      (c₁.d.seqno = c₁.pcb.rcvNxt ∧ c₁.d.inseg.tcphdr.flags.syn = false ∧ tcpReceiveInSeq cfg c₁ = some c' ∨
        c₁.d = c.d ∧ OosSeg c₁.pcb.rcvNxt (c₁.pcb.rcvNxt + c₁.pcb.rcvWnd) c₁.d ∧
          tcpReceiveOoseq env c₁ = some c' ∨
        c'.pcb.rcvNxt = c₁.pcb.rcvNxt ∧ c'.pcb.ooseq = c₁.pcb.ooseq) := by
  simp only [tcpReceiveData, Option.bind_eq_bind, Option.bind_eq_some] at h
  obtain ⟨c₁, h₁, h₂⟩ := h
  have e₁ : c₁.pcb.rcvNxt = c.pcb.rcvNxt ∧ c₁.pcb.ooseq = c.pcb.ooseq ∧ c₁.pcb.rcvWnd = c.pcb.rcvWnd := by
    rcases tcpTrimLeftEdge_pcb h₁ with e | e <;> rw [e] <;> exact ⟨rfl, rfl, rfl⟩
  refine ⟨c₁, e₁.1, e₁.2.1, ?_⟩
  split_ifs at h₂ with hwin hnx
  · have hs : c₁.d.inseg.tcphdr.flags.syn = false := by
      rcases tcpTrimLeftEdge_d h₁ with e | ⟨-, e⟩ <;> rw [e] <;> exact hd.no_syn
    exact .inl ⟨hnx.symm, hs, h₂⟩
  · have hdd : c₁.d = c.d := (tcpTrimLeftEdge_d h₁).resolve_right fun h => hnx (e₁.1.trans h.1.symm)
    rw [hdd] at hwin hnx
    have hoos := hd.oosSeg (by rw [e₁.2.2]; exact hw0) (by rw [e₁.2.2]; exact hw) ht hwin hnx
    exact .inr (.inl ⟨hdd, hdd ▸ hoos, h₂⟩)
  · cases h₂; exact .inr (.inr ⟨rfl, rfl⟩)

/-- The data half of `tcp_receive` keeps `ooseq` well formed for a segment without SYN. -/
theorem tcpReceiveData_wf {cfg : Config} {c c' : Ctx} (hq : OoseqWf c.pcb.rcvNxt 1 c.pcb.ooseq) (hd : RxSegOk c.d)
    (hw0 : 0 < c.pcb.rcvWnd.toNat) (hw : c.pcb.rcvWnd.toNat < 2^30) (ht : 0 < c.d.tcplen.toNat)
    (h : tcpReceiveData cfg env c = some c') : OoseqWf c'.pcb.rcvNxt 1 c'.pcb.ooseq := by
  obtain ⟨c₁, hn, ho, ⟨hseq, hs, h₂⟩ | ⟨-, hoos, h₂⟩ | ⟨hn', ho'⟩⟩ :=
    tcpReceiveData_cases hd hw0 hw ht h
  all_goals rw [← hn, ← ho] at hq
  · exact tcpReceiveInSeq_wf hq hseq hs h₂
  · exact (tcpReceiveOoseq_wf (EntryClosed.trivial _) hq hoos True.intro (fun _ _ => True.intro) h₂).2.1
  · rwa [hn', ho']

/-- What `tcp_receive` does to the receive side: the ACK half leaves it and the segment alone;
then the data half runs on a segment with payload or FIN, or `rcv_nxt` and `ooseq` stay. -/
theorem tcpReceive_cases {cfg : Config} {c c' : Ctx} (h : tcpReceive cfg env c = some c') :
    ∃ c₁ : Ctx, c₁.pcb.rcvNxt = c.pcb.rcvNxt ∧ c₁.pcb.ooseq = c.pcb.ooseq ∧ c₁.pcb.rcvWnd = c.pcb.rcvWnd ∧
      c₁.d = c.d ∧ (0 < c₁.d.tcplen.toNat ∧ tcpReceiveData cfg env c₁ = some c' ∨
        c'.pcb.rcvNxt = c.pcb.rcvNxt ∧ c'.pcb.ooseq = c.pcb.ooseq) := by
  unfold tcpReceive at h
  obtain ⟨c₁, h₁, h₂⟩ := Option.bind_eq_some.mp h
  have f : RcvFrame c c₁ := by
    split at h₁
    · exact tcpReceiveAck_frame h₁
    · cases h₁; exact ⟨rfl, rfl⟩
  have hn : c₁.pcb.rcvNxt = c.pcb.rcvNxt := congrArg RcvSide.rcvNxt f.2
  have ho : c₁.pcb.ooseq = c.pcb.ooseq := congrArg RcvSide.ooseq f.2
  refine ⟨c₁, hn, ho, congrArg RcvSide.rcvWnd f.2, f.1, ?_⟩
  split_ifs at h₂ with hdata
  · simp only [Bool.and_eq_true, decide_eq_true_eq] at hdata
    exact .inl ⟨hdata.1, h₂⟩
  all_goals cases h₂; exact .inr ⟨hn, ho⟩

/-- Every call of `tcp_receive` on a segment without SYN keeps `ooseq` well formed: sorted by
offset from `rcv_nxt`, disjoint, of entries that occupy sequence numbers, with a FIN only on the
last, all ahead of `rcv_nxt` and within half the sequence space. The receive window must be open
and below `2^30`, as `TCP_WND_SCALED` makes it. -/
theorem tcpReceive_ooseqWf {cfg : Config} {c c' : Ctx} (hq : OoseqWf c.pcb.rcvNxt 1 c.pcb.ooseq)
    (hd : RxSegOk c.d) (hw0 : 0 < c.pcb.rcvWnd.toNat) (hw : c.pcb.rcvWnd.toNat < 2^30)
    (h : tcpReceive cfg env c = some c') : OoseqWf c'.pcb.rcvNxt 1 c'.pcb.ooseq := by
  obtain ⟨c₁, hn, ho, hwn, hd₁, ⟨ht, h₂⟩ | ⟨hn', ho'⟩⟩ := tcpReceive_cases h
  · rw [← hn, ← ho] at hq
    rw [← hd₁] at hd
    rw [← hwn] at hw0 hw
    exact tcpReceiveData_wf hq hd hw0 hw ht h₂
  · rwa [hn', ho']

end Place

/-- Twenty bytes at 1010 wait on `ooseq`; five bytes at 1015 arrive inside them. -/
def sampleOoseqCtx : Ctx :=
  ⟨{ wideWndPcb with ooseq := [(dataIn 1010 0 { ack := true } 20).inseg] }, dataIn 1015 0 { ack := true } 5, []⟩

def sampleOoseqResult : Ctx := (tcpReceive {} {} sampleOoseqCtx).getD sampleOoseqCtx

theorem tcpReceive_ooseqWf_sample :
    OoseqWf sampleOoseqCtx.pcb.rcvNxt 1 sampleOoseqCtx.pcb.ooseq ∧ RxSegOk sampleOoseqCtx.d ∧
      0 < sampleOoseqCtx.pcb.rcvWnd.toNat ∧ sampleOoseqCtx.pcb.rcvWnd.toNat < 2^30 ∧
      OoseqWf sampleOoseqResult.pcb.rcvNxt 1 sampleOoseqResult.pcb.ooseq :=
  ⟨by decide, ⟨rfl, rfl, by decide, by decide⟩, by decide, by decide,
    @tcpReceive_ooseqWf {} {} sampleOoseqCtx sampleOoseqResult (by decide) ⟨rfl, rfl, by decide, by decide⟩ (by decide) (by decide) rfl⟩

/-- The tail append keeps the order but cuts the buffered entry: the queue is [1010, 1015) and
[1015, 1020). -/
example : sampleOoseqResult.pcb.ooseq.map (fun e => (e.start, e.len)) = [(1010, 5), (1015, 5)] := by
  decide

end XlioTcp
