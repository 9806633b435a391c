import Mathlib.Data.BitVec

/-! Fixed-width words of the C code, and lwIP's sequence-number comparisons
(`TCP_SEQ_LT` and friends): the sign of the 32-bit difference. -/
namespace XlioTcp

abbrev U32 := BitVec 32
abbrev U16 := BitVec 16
abbrev U8 := BitVec 8
/-- `s16_t`: the same bits as `u16_t`, read through `toInt`. -/
abbrev S16 := BitVec 16

/-- Modelled from the spec: `TCP_SEQ_LT` of `tcp_impl.h` (not among the sources),
`(s32_t)((u32_t)a - (u32_t)b) < 0`, a comparison by modular difference. -/
def tcpSeqLt (a b : U32) : Bool := decide ((a - b).toInt < 0)
def tcpSeqLeq (a b : U32) : Bool := decide ((a - b).toInt ≤ 0)
def tcpSeqGt (a b : U32) : Bool := decide ((a - b).toInt > 0)
def tcpSeqGeq (a b : U32) : Bool := decide ((a - b).toInt ≥ 0)
/-- `TCP_SEQ_BETWEEN(a,b,c)`: `TCP_SEQ_GEQ(a,b) && TCP_SEQ_LEQ(a,c)`. -/
def tcpSeqBetween (a b c : U32) : Bool := tcpSeqGeq a b && tcpSeqLeq a c

/-- Distance of `x` ahead of the base `b` in sequence space. -/
def seqOff (b x : U32) : Nat := (x - b).toNat

theorem seqOff_eq (b x : U32) : seqOff b x = (2^32 - b.toNat + x.toNat) % 2^32 :=
  BitVec.toNat_sub x b

@[simp] theorem seqOff_self (b : U32) : seqOff b b = 0 := by simp [seqOff]

private theorem toInt_neg_iff (x : U32) : x.toInt < 0 ↔ 2^31 ≤ x.toNat := by
  rw [BitVec.toInt_eq_toNat_cond]
  have := x.isLt
  split <;> omega

private theorem toInt_pos_iff (x : U32) : 0 < x.toInt ↔ 0 < x.toNat ∧ x.toNat < 2^31 := by
  rw [BitVec.toInt_eq_toNat_cond]
  have := x.isLt
  split <;> omega

private theorem sub_toNat (x y : U32) : (x - y).toNat = (2^32 - y.toNat + x.toNat) % 2^32 :=
  BitVec.toNat_sub x y

theorem tcpSeqLt_iff (a b : U32) : tcpSeqLt a b = true ↔ 2^31 ≤ (a - b).toNat := by
  simp only [tcpSeqLt, decide_eq_true_eq, toInt_neg_iff]

theorem tcpSeqGt_iff (a b : U32) :
    tcpSeqGt a b = true ↔ 0 < (a - b).toNat ∧ (a - b).toNat < 2^31 := by
  simp only [tcpSeqGt, decide_eq_true_eq, gt_iff_lt, toInt_pos_iff]

theorem tcpSeqGeq_eq_not_lt (a b : U32) : tcpSeqGeq a b = !tcpSeqLt a b := by
  rw [Bool.eq_iff_iff]
  simp only [tcpSeqGeq, tcpSeqLt, decide_eq_true_eq, Bool.not_eq_true', decide_eq_false_iff_not]
  omega

theorem tcpSeqLeq_eq_not_gt (a b : U32) : tcpSeqLeq a b = !tcpSeqGt a b := by
  rw [Bool.eq_iff_iff]
  simp only [tcpSeqLeq, tcpSeqGt, decide_eq_true_eq, Bool.not_eq_true', decide_eq_false_iff_not]
  omega

/-- `TCP_SEQ_GEQ(a, b + 1)`, the lower bound of the ACK test in `tcp_process`, is `b < a`. -/
theorem tcpSeqGeq_add_one (a b : U32) : tcpSeqGeq a (b + 1) = tcpSeqLt b a := by
  rw [Bool.eq_iff_iff, tcpSeqGeq_eq_not_lt, Bool.not_eq_true', ← Bool.not_eq_true, tcpSeqLt_iff,
    tcpSeqLt_iff]
  simp only [BitVec.toNat_sub, BitVec.toNat_add]
  have := a.isLt; have := b.isLt
  simp
  omega

section Offsets
variable {b x y : U32}

/-- Below half the sequence space, the modular order is the order of offsets. -/
theorem tcpSeqLt_iff_off (hx : seqOff b x < 2^31) (hy : seqOff b y < 2^31) :
    tcpSeqLt x y = true ↔ seqOff b x < seqOff b y := by
  rw [tcpSeqLt_iff, sub_toNat]
  rw [seqOff_eq] at hx hy ⊢
  rw [seqOff_eq]
  have := x.isLt
  have := y.isLt
  have := b.isLt
  omega

theorem tcpSeqGt_iff_off (hx : seqOff b x < 2^31) (hy : seqOff b y < 2^31) :
    tcpSeqGt x y = true ↔ seqOff b y < seqOff b x := by
  rw [tcpSeqGt_iff, sub_toNat]
  rw [seqOff_eq] at hx hy ⊢
  rw [seqOff_eq]
  have := x.isLt
  have := y.isLt
  have := b.isLt
  omega

theorem tcpSeqGeq_iff_off (hx : seqOff b x < 2^31) (hy : seqOff b y < 2^31) :
    tcpSeqGeq x y = true ↔ seqOff b y ≤ seqOff b x := by
  rw [tcpSeqGeq_eq_not_lt, Bool.not_eq_true', ← Bool.not_eq_true, tcpSeqLt_iff_off hx hy]
  omega

theorem tcpSeqLeq_iff_off (hx : seqOff b x < 2^31) (hy : seqOff b y < 2^31) :
    tcpSeqLeq x y = true ↔ seqOff b x ≤ seqOff b y := by
  rw [tcpSeqLeq_eq_not_gt, Bool.not_eq_true', ← Bool.not_eq_true, tcpSeqGt_iff_off hx hy]
  omega

theorem eq_iff_off : x = y ↔ seqOff b x = seqOff b y := by
  constructor
  · rintro rfl; rfl
  · intro h
    have h' : x - b = y - b := BitVec.eq_of_toNat_eq h
    simpa using congrArg (· + b) h'

theorem seqOff_add (n : U32) (h : seqOff b x + n.toNat < 2^32) :
    seqOff b (x + n) = seqOff b x + n.toNat := by
  rw [seqOff_eq, seqOff_eq, BitVec.toNat_add] at *
  have := x.isLt
  have := b.isLt
  have := n.isLt
  omega

theorem seqOff_sub (n : U32) (h : n.toNat ≤ seqOff b x) :
    seqOff b (x - n) = seqOff b x - n.toNat := by
  rw [seqOff_eq, seqOff_eq, BitVec.toNat_sub] at *
  have := x.isLt
  have := b.isLt
  have := n.isLt
  omega

theorem seqOff_base_add (n : U32) : seqOff b (b + n) = n.toNat := by
  simp [seqOff]

/-- Offsets from a later base are offsets from the earlier one, less the gap. -/
theorem seqOff_rebase {b' : U32} (h : seqOff b b' ≤ seqOff b x) :
    seqOff b' x = seqOff b x - seqOff b b' := by
  rw [seqOff_eq, seqOff_eq, seqOff_eq] at *
  have := x.isLt
  have := b.isLt
  have := b'.isLt
  omega

end Offsets

section Shift
variable (a c k : U32)

@[simp] theorem sub_add_add_right : (a + k) - (c + k) = a - c :=
  add_sub_add_right_eq_sub a c k
@[simp] theorem beq_add_add : (a + k == c + k) = (a == c) := by
  simp [beq_iff_eq]

/-- A shift `k` moves out of a sum or a difference; stated on `U32` so that rewriting keeps the
`BitVec` instances. -/
theorem add_shift_comm : a + k + c = a + c + k := by
  rw [BitVec.add_assoc, BitVec.add_comm k, ← BitVec.add_assoc]
theorem add_sub_shift_comm : a + k - c = a - c + k :=
  (sub_add_eq_add_sub a c k).symm

@[simp] theorem tcpSeqLt_add_add : tcpSeqLt (a + k) (c + k) = tcpSeqLt a c := by
  simp [tcpSeqLt]
@[simp] theorem tcpSeqLeq_add_add : tcpSeqLeq (a + k) (c + k) = tcpSeqLeq a c := by
  simp [tcpSeqLeq]
@[simp] theorem tcpSeqGt_add_add : tcpSeqGt (a + k) (c + k) = tcpSeqGt a c := by
  simp [tcpSeqGt]
@[simp] theorem tcpSeqGeq_add_add : tcpSeqGeq (a + k) (c + k) = tcpSeqGeq a c := by
  simp [tcpSeqGeq]
@[simp] theorem tcpSeqBetween_add_add (b : U32) :
    tcpSeqBetween (a + k) (b + k) (c + k) = tcpSeqBetween a b c := by
  simp [tcpSeqBetween]

end Shift

end XlioTcp
