import XlioTcp.TcSelector

/-! Byte order for the tc filters of `src/tools/daemon/tc.c`. The u32 classifier compares the
packet's bytes with a key as they sit in memory; `pack_key*` pass the key through `htonl`, so
that a key written as a network-order value tests the packet's network-order word on either
host. Words are four appended bytes, the first byte in memory the most significant. -/
namespace XlioTcp

/-- Bytes in memory by offset: a packet from its network header, or an address field. -/
abbrev Bytes := BitVec 32 → U8

/-- The network-order (big-endian) value of the four bytes at `o`. -/
def beWord (p : Bytes) (o : BitVec 32) : U32 := p o ++ p (o + 1) ++ p (o + 2) ++ p (o + 3)

/-- The network-order value of the two bytes at `o`. -/
def be16 (p : Bytes) (o : BitVec 32) : U16 := p o ++ p (o + 1)

/-- Reverses the four bytes of a word. -/
def bswap (x : U32) : U32 :=
  x.extractLsb' 0 8 ++ x.extractLsb' 8 8 ++ x.extractLsb' 16 8 ++ x.extractLsb' 24 8

/-- The host's byte order, on which a `uint32_t` load and `htonl` depend. -/
inductive ByteOrder
  | little
  | big
  deriving DecidableEq, Repr

namespace ByteOrder

/-- A `uint32_t` load of the four bytes at `o`: the classifier's `*data`, and
`((uint32_t *)addr)[i]` in `pack_ip6`. -/
def load : ByteOrder → Bytes → BitVec 32 → U32
  | big, p, o => beWord p o
  | little, p, o => p (o + 3) ++ p (o + 2) ++ p (o + 1) ++ p o

/-- A `uint16_t` load of the two bytes at `o`: `sin_port`. -/
def load16 : ByteOrder → Bytes → BitVec 32 → U16
  | big, p, o => be16 p o
  | little, p, o => p (o + 1) ++ p o

def htonl : ByteOrder → U32 → U32
  | big, x => x
  | little, x => bswap x

def ntohl : ByteOrder → U32 → U32
  | big, x => x
  | little, x => bswap x

def ntohs : ByteOrder → U16 → U16
  | big, x => x
  | little, x => x.extractLsb' 0 8 ++ x.extractLsb' 8 8

end ByteOrder

/-! ## Words as bytes -/

theorem append_inj {n m : Nat} {a c : BitVec n} {b d : BitVec m} :
    a ++ b = c ++ d ↔ a = c ∧ b = d := by
  refine ⟨fun h => ⟨?_, ?_⟩, fun ⟨h1, h2⟩ => h1 ▸ h2 ▸ rfl⟩
  · ext i
    have := congrArg (·.getLsbD (i + m)) h
    simpa [BitVec.getLsbD_append, show ¬((i : Nat) + m < m) by omega] using this
  · ext i
    have := congrArg (·.getLsbD i) h
    simpa [BitVec.getLsbD_append, i.isLt] using this

theorem extractLsb'_append_low {n m : Nat} (x : BitVec n) (y : BitVec m) :
    (x ++ y).extractLsb' 0 m = y := by
  ext i
  simp [BitVec.getLsbD_append, i.isLt]

theorem extractLsb'_append_high {n m : Nat} (x : BitVec n) (y : BitVec m) {t : Nat} (k : Nat)
    (h : m ≤ t) : (x ++ y).extractLsb' t k = x.extractLsb' (t - m) k := by
  ext i
  simp only [BitVec.getLsbD_extractLsb', BitVec.getLsbD_append]
  rw [show t - m + (i : Nat) = t + i - m by omega]
  simp [show ¬(t + (i : Nat) < m) by omega]

theorem extractLsb'_self {n : Nat} (x : BitVec n) : x.extractLsb' 0 n = x := by
  ext i
  simp [i.isLt]

theorem bswap_append (a b c d : U8) : bswap (a ++ b ++ c ++ d) = d ++ c ++ b ++ a := by
  simp (disch := decide) only [bswap, extractLsb'_append_low, extractLsb'_append_high,
    extractLsb'_self, Nat.reduceSub]

/-- A word is its four bytes, most significant first. -/
theorem eq_bytes (x : U32) :
    x = x.extractLsb' 24 8 ++ x.extractLsb' 16 8 ++ x.extractLsb' 8 8 ++ x.extractLsb' 0 8 := by
  ext i
  have key : ∀ {e : Nat} {P : Prop} [Decidable P], P → e = (i : Nat) →
      x.getLsbD i = (decide P && x.getLsbD e) := by
    intro e P _ hp he; simp [hp, he]
  simp only [BitVec.getLsbD_append, BitVec.getLsbD_extractLsb', cond_eq_if]
  split_ifs <;> simp only [decide_eq_true_eq] at * <;> exact key (by omega) (by omega)

theorem bswap_bswap (x : U32) : bswap (bswap x) = x :=
  (bswap_append _ _ _ _).trans (eq_bytes x).symm

/-! The lemmas below are stated at `U32` and `U16`, the widths of the model's words: the core
lemmas on `++` are stated at width `w + v`, which does not unify with a literal width. -/

theorem bytes_inj {a b c d e f g h : U8} :
    (a ++ b ++ c ++ d : U32) = e ++ f ++ g ++ h ↔ a = e ∧ b = f ∧ c = g ∧ d = h := by
  show (a ++ b ++ c ++ d : BitVec (8 + 8 + 8 + 8)) = e ++ f ++ g ++ h ↔ _
  simp only [append_inj, and_assoc]

theorem halves_inj {a b c d : U8} : (a ++ b : U16) = c ++ d ↔ a = c ∧ b = d := append_inj

theorem and_bytes (a b c d e f g h : U8) :
    (a ++ b ++ c ++ d : U32) &&& (e ++ f ++ g ++ h) = (a &&& e) ++ (b &&& f) ++ (c &&& g) ++ (d &&& h) :=
  BitVec.and_append.trans (by rw [BitVec.and_append, BitVec.and_append])

theorem and_halves (a b c d : U8) : (a ++ b : U16) &&& (c ++ d) = (a &&& c) ++ (b &&& d) :=
  BitVec.and_append

theorem bswap_and (x y : U32) : bswap (x &&& y) = bswap x &&& bswap y := by
  rw [eq_bytes x, eq_bytes y, and_bytes, bswap_append, bswap_append, bswap_append, and_bytes]

theorem shl8_bytes (a b c d : U8) : (a ++ b ++ c ++ d : U32) <<< 8 = b ++ c ++ d ++ 0#8 := by
  ext i
  have hi := i.isLt
  simp only [BitVec.getLsbD_shiftLeft, BitVec.getLsbD_append, cond_eq_if, i.isLt, decide_True,
    Bool.true_and, BitVec.getLsbD_zero]
  split_ifs <;> simp only [decide_eq_true_eq] at * <;> first | omega | simp [*]

theorem shl16_bytes (a b c d : U8) : (a ++ b ++ c ++ d : U32) <<< 16 = c ++ d ++ 0#8 ++ 0#8 := by
  rw [show 16 = 8 + 8 from rfl, BitVec.shiftLeft_add, shl8_bytes, shl8_bytes]

theorem shl24_bytes (a b c d : U8) : (a ++ b ++ c ++ d : U32) <<< 24 = d ++ 0#8 ++ 0#8 ++ 0#8 := by
  rw [show 24 = 16 + 8 from rfl, BitVec.shiftLeft_add, shl16_bytes, shl8_bytes]

theorem setWidth8_bytes (a b c d : U8) : (a ++ b ++ c ++ d : U32).setWidth 8 = d := by
  ext i
  simp only [BitVec.getLsbD_setWidth, BitVec.getLsbD_append, cond_eq_if, i.isLt, decide_True,
    Bool.true_and, if_true, show (i : Nat) < 32 by omega]

theorem setWidth16_bytes (a b c d : U8) : (a ++ b ++ c ++ d : U32).setWidth 16 = c ++ d := by
  ext i
  have hi := i.isLt
  simp only [BitVec.getLsbD_setWidth, BitVec.getLsbD_append, cond_eq_if, hi, decide_True, Bool.true_and]
  split_ifs <;> simp only [decide_eq_true_eq] at * <;> omega

/-- The bytes of a mask below `2^n` from bit `n` up are zero. -/
theorem extractLsb'_of_lt {m : U32} {n s : Nat} (h : m.toNat < 2 ^ n) (hs : n ≤ s) :
    m.extractLsb' s 8 = 0#8 := by
  apply BitVec.eq_of_toNat_eq
  rw [BitVec.extractLsb'_toNat, Nat.shiftRight_eq_div_pow,
    Nat.div_eq_of_lt (lt_of_lt_of_le h (Nat.pow_le_pow_right Nat.two_pos hs))]
  rfl

/-! ## `htonl` -/

namespace ByteOrder
variable (bo : ByteOrder)

@[simp] theorem htonl_load (p : Bytes) (o : BitVec 32) : bo.htonl (bo.load p o) = beWord p o := by
  cases bo
  · exact bswap_append _ _ _ _
  · rfl

@[simp] theorem ntohl_load (p : Bytes) (o : BitVec 32) : bo.ntohl (bo.load p o) = beWord p o := by
  cases bo
  · exact bswap_append _ _ _ _
  · rfl

@[simp] theorem ntohs_load16 (p : Bytes) (o : BitVec 32) : bo.ntohs (bo.load16 p o) = be16 p o := by
  cases bo
  · simp (disch := decide) only [load16, ntohs, extractLsb'_append_low, extractLsb'_append_high,
      extractLsb'_self, Nat.sub_self]
    rfl
  · rfl

@[simp] theorem htonl_htonl (x : U32) : bo.htonl (bo.htonl x) = x := by
  cases bo
  · exact bswap_bswap x
  · rfl

theorem htonl_and (x y : U32) : bo.htonl (x &&& y) = bo.htonl x &&& bo.htonl y := by
  cases bo
  · exact bswap_and x y
  · rfl

theorem htonl_inj {x y : U32} : bo.htonl x = bo.htonl y ↔ x = y :=
  ⟨fun h => by rw [← htonl_htonl bo x, h, htonl_htonl], congrArg _⟩

theorem load_eq_htonl (p : Bytes) (o : BitVec 32) : bo.load p o = bo.htonl (beWord p o) := by
  rw [← htonl_load bo p o, htonl_htonl]

@[simp] theorem htonl_zero : bo.htonl 0 = 0 := by
  cases bo <;> rfl

/-- The classifier's test of a key packed through `htonl`, on a host of either order, is the test
of the packet's network-order word. -/
theorem load_test_htonl (p : Bytes) (o : BitVec 32) (m k : U32) :
    (bo.load p o &&& bo.htonl m == bo.htonl k &&& bo.htonl m) = (beWord p o &&& m == k &&& m) := by
  rw [load_eq_htonl, ← htonl_and, ← htonl_and, Bool.eq_iff_iff, beq_iff_eq, beq_iff_eq, htonl_inj]

end ByteOrder

/-! ## Where a shifted key lands -/

/-- A mask below `2^8` shifted left by `24 - 8 r` selects byte `r` of the network-order word. -/
theorem beWord_test_byte (p : Bytes) (o : BitVec 32) (k m : U32) (hm : m.toNat < 2 ^ 8) {r s : Nat}
    (hr : r < 4) (hs : s + 8 * r = 24) :
    (beWord p o &&& m <<< s == k <<< s &&& m <<< s) =
      (p (o + BitVec.ofNat 32 r) &&& m.setWidth 8 == k.setWidth 8 &&& m.setWidth 8) := by
  obtain ⟨m8, rfl⟩ : ∃ m8 : U8, m = 0#8 ++ 0#8 ++ 0#8 ++ m8 := ⟨m.extractLsb' 0 8, by
    conv_lhs => rw [eq_bytes m]
    rw [extractLsb'_of_lt hm (by decide), extractLsb'_of_lt hm (by decide),
      extractLsb'_of_lt hm le_rfl]⟩
  obtain ⟨a, b, c, d, rfl⟩ : ∃ a b c d : U8, k = a ++ b ++ c ++ d := ⟨_, _, _, _, eq_bytes k⟩
  rw [setWidth8_bytes, setWidth8_bytes, Bool.eq_iff_iff, beq_iff_eq, beq_iff_eq, beWord]
  obtain ⟨rfl, rfl⟩ | ⟨rfl, rfl⟩ | ⟨rfl, rfl⟩ | ⟨rfl, rfl⟩ :
      (r = 0 ∧ s = 24) ∨ (r = 1 ∧ s = 16) ∨ (r = 2 ∧ s = 8) ∨ (r = 3 ∧ s = 0) := by omega
  all_goals simp only [shl24_bytes, shl16_bytes, shl8_bytes, BitVec.shiftLeft_zero, and_bytes,
    BitVec.and_zero, BitVec.zero_and, bytes_inj, and_true, true_and, BitVec.ofNat_eq_ofNat,
    BitVec.add_zero]

/-- A mask below `2^16` shifted left by 16 selects the first two bytes of the network-order
word, and unshifted the last two. -/
theorem beWord_test_half (p : Bytes) (o : BitVec 32) (k m : U32) (hm : m.toNat < 2 ^ 16) {r s : Nat}
    (hr : r = 0 ∧ s = 16 ∨ r = 2 ∧ s = 0) :
    (beWord p o &&& m <<< s == k <<< s &&& m <<< s) =
      (be16 p (o + BitVec.ofNat 32 r) &&& m.setWidth 16 == k.setWidth 16 &&& m.setWidth 16) := by
  obtain ⟨m1, m0, rfl⟩ : ∃ m1 m0 : U8, m = 0#8 ++ 0#8 ++ m1 ++ m0 := ⟨_, _, by
    conv_lhs => rw [eq_bytes m]
    rw [extractLsb'_of_lt hm (by decide), extractLsb'_of_lt hm le_rfl]⟩
  obtain ⟨a, b, c, d, rfl⟩ : ∃ a b c d : U8, k = a ++ b ++ c ++ d := ⟨_, _, _, _, eq_bytes k⟩
  rw [setWidth16_bytes, setWidth16_bytes, Bool.eq_iff_iff, beq_iff_eq, beq_iff_eq, beWord, be16,
    and_halves, and_halves, halves_inj]
  obtain ⟨rfl, rfl⟩ | ⟨rfl, rfl⟩ := hr
  all_goals simp only [shl16_bytes, BitVec.shiftLeft_zero, and_bytes, BitVec.and_zero,
    BitVec.zero_and, bytes_inj, and_true, true_and, BitVec.ofNat_eq_ofNat, BitVec.add_zero,
    BitVec.add_assoc, BitVec.reduceAdd]

end XlioTcp
