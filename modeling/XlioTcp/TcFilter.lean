import XlioTcp.TcBytes

/-! The key packers of `src/tools/daemon/tc.c` over packet bytes, and the selectors that
`tc_add_filter_link`, `tc_add_filter_tap2dev` and `tc_add_filter_dev2tap` build from them.
`pack_key8` and `pack_key16` shift a byte or a half-word into the aligned word that holds it,
every packer passes key and mask through `htonl`, and `pack_ip6` packs an IPv6 address as four
words. A packet is read from its network header; the model takes it long enough for every key. -/
namespace XlioTcp

/-! ## `pack_key` at a fresh or a shared place -/

section PackKey
variable {sel : TcU32Sel} {key mask : U32} {off offmask : BitVec 32}

theorem packKeyMerge_split {k : TcU32Key} {post : List TcU32Key} (hk : k.off = off ∧ k.offmask = offmask)
    (hc : (key ^^^ k.val) &&& (mask &&& k.mask) = 0) : ∀ {pre : List TcU32Key},
    (∀ k' ∈ pre, ¬(k'.off = off ∧ k'.offmask = offmask)) →
    packKeyMerge key mask off offmask (pre ++ k :: post) =
      some (some (pre ++ { k with val := k.val ||| key, mask := k.mask ||| mask } :: post))
  | [], _ => by rw [List.nil_append, packKeyMerge, if_pos hk, if_neg (not_not.mpr hc)]; rfl
  | k' :: pre, h => by
    rw [List.cons_append, packKeyMerge, if_neg (h k' (List.mem_cons_self _ _)),
      packKeyMerge_split hk hc fun k'' hk'' => h k'' (List.mem_cons_of_mem _ hk'')]
    rfl

theorem nkeys_succ (hn : sel.nkeys.toNat < 255) : (sel.nkeys + 1).toNat = sel.nkeys.toNat + 1 := by
  rw [BitVec.toNat_add, show (1 : U8).toNat = 1 from rfl, Nat.mod_eq_of_lt (by omega)]

theorem active_appended (hn : sel.nkeys.toNat < 255) (k : TcU32Key) :
    (⟨sel.nkeys + 1, sel.keys.take sel.nkeys.toNat ++ k :: sel.keys.drop (sel.nkeys.toNat + 1)⟩ :
      TcU32Sel).active = sel.active ++ [k] := by
  rw [TcU32Sel.active, nkeys_succ hn, take_appended]; rfl

/-- `pack_key` at an aligned place that no active key holds appends the key. -/
theorem packKey_fresh (hfresh : ∀ k ∈ sel.active, ¬(k.off = off ∧ k.offmask = offmask))
    (hal : off.srem 4 = 0) (hn : sel.nkeys.toNat < 255) :
    (packKey sel key mask off offmask).1 = 0 ∧
      (packKey sel key mask off offmask).2.active = sel.active ++ [⟨mask, key &&& mask, off, offmask⟩] ∧
      (packKey sel key mask off offmask).2.nkeys.toNat = sel.nkeys.toNat + 1 := by
  have hm : packKeyMerge (key &&& mask) mask off offmask (sel.keys.take sel.nkeys.toNat) = none :=
    packKeyMerge_absent hfresh
  unfold packKey
  dsimp only
  rw [hm]
  dsimp only
  rw [if_neg (not_not.mpr hal)]
  exact ⟨rfl, active_appended hn _, nkeys_succ hn⟩

/-- `pack_key` at a place whose first active key agrees with the new bits merges into that key. -/
theorem packKey_shared {pre post : List TcU32Key} {k : TcU32Key} (hact : sel.active = pre ++ k :: post)
    (hpre : ∀ k' ∈ pre, ¬(k'.off = off ∧ k'.offmask = offmask)) (hk : k.off = off ∧ k.offmask = offmask)
    (hc : ((key &&& mask) ^^^ k.val) &&& (mask &&& k.mask) = 0) :
    (packKey sel key mask off offmask).1 = 0 ∧
      (packKey sel key mask off offmask).2.active =
        pre ++ { k with val := k.val ||| key &&& mask, mask := k.mask ||| mask } :: post ∧
      (packKey sel key mask off offmask).2.nkeys = sel.nkeys := by
  unfold packKey
  dsimp only
  rw [show sel.keys.take sel.nkeys.toNat = sel.active from rfl, hact, packKeyMerge_split hk hc hpre]
  refine ⟨rfl, take_merged ?_, rfl⟩
  rw [show sel.keys.take sel.nkeys.toNat = sel.active from rfl, hact]
  simp

/-- `pack_key` on a selector of fewer than 255 keys whose values lie inside their masks: either it
returns 0 and adds exactly the test of the new key, or it returns -1, leaves the selector as it
was, and either a key at the same place was there or `off` is not a multiple of 4. -/
theorem packKey_spec (hok : sel.Ok) (hn : sel.nkeys.toNat < 255) :
    ((packKey sel key mask off offmask).1 = 0 ∧
      (∀ word, (packKey sel key mask off offmask).2.admits word =
        (sel.admits word && (word off &&& mask == key &&& mask))) ∧
      (packKey sel key mask off offmask).2.Ok) ∨
    (packKey sel key mask off offmask = (-1, sel) ∧
      ((∃ k ∈ sel.active, k.off = off ∧ k.offmask = offmask) ∨ off.srem 4 ≠ 0)) := by
  unfold packKey
  dsimp only
  rcases h : packKeyMerge (key &&& mask) mask off offmask (sel.keys.take sel.nkeys.toNat) with _ | _ | ks
  · split_ifs with h4
    · exact .inr ⟨rfl, .inr h4⟩
    · have e := active_appended hn ⟨mask, key &&& mask, off, offmask⟩
      refine .inl ⟨rfl, fun word => ?_, ?_⟩
      · rw [TcU32Sel.admits, e, List.all_append, List.all_cons, List.all_nil, Bool.and_true]; rfl
      · rw [TcU32Sel.Ok, e]
        intro k hk
        rcases List.mem_append.mp hk with hk | hk
        · exact hok k hk
        · rw [List.mem_singleton.mp hk]; exact masked_ok key mask
  · refine .inr ⟨rfl, .inl ?_⟩
    by_contra hne
    rw [@packKeyMerge_absent (key &&& mask) mask off offmask (sel.keys.take sel.nkeys.toNat)
      fun k hk hp => hne ⟨k, hk, hp⟩] at h
    cases h
  · obtain ⟨hw, hl⟩ := packKeyMerge_merge (masked_ok key mask) hok h
    have e : ({ sel with keys := ks ++ sel.keys.drop sel.nkeys.toNat } : TcU32Sel).active = ks :=
      take_merged (packKeyMerge_length h)
    exact .inl ⟨rfl, fun word => by rw [TcU32Sel.admits, e, hw]; rfl, by rw [TcU32Sel.Ok, e]; exact hl⟩

end PackKey

/-! ## Offsets inside a word -/

theorem toNat_and3 (off : BitVec 32) : (off &&& 3).toNat = off.toNat % 4 := by
  rw [BitVec.toNat_and]
  exact Nat.and_pow_two_sub_one_eq_mod _ 2

theorem and_not3_disjoint (off : BitVec 32) : off &&& ~~~3 &&& (off &&& 3) = 0 := by
  ext i
  simp only [BitVec.getLsbD_and, BitVec.getLsbD_not, BitVec.getLsbD_zero]
  cases off.getLsbD i <;> cases (3 : BitVec 32).getLsbD i <;> simp

/-- `off & ~3` and `off & 3` split `off` into its word and its byte in the word. -/
theorem and_not3_add (off : BitVec 32) : (off &&& ~~~3) + (off &&& 3) = off := by
  rw [BitVec.add_eq_or_of_and_eq_zero _ _ (and_not3_disjoint off)]
  ext i
  simp only [BitVec.getLsbD_or, BitVec.getLsbD_and, BitVec.getLsbD_not, i.isLt, decide_True,
    Bool.true_and]
  cases off.getLsbD i <;> cases (3 : BitVec 32).getLsbD i <;> rfl

theorem toNat_and_not3 (off : BitVec 32) : (off &&& ~~~3).toNat % 4 = 0 := by
  have h := BitVec.toNat_add_of_and_eq_zero (and_not3_disjoint off)
  rw [and_not3_add, toNat_and3] at h
  omega

/-- C's `off % 4` on a word offset that is a multiple of 4. -/
theorem srem_four_eq_zero {x : BitVec 32} (h : x.toNat % 4 = 0) : x.srem 4 = 0 := by
  rw [BitVec.srem_eq, show (4 : BitVec 32).msb = false from rfl]
  cases x.msb
  · exact BitVec.eq_of_toNat_eq (by rw [BitVec.toNat_umod]; simpa using h)
  · show -((-x) % 4) = 0
    rw [show (-x) % 4 = 0 from BitVec.eq_of_toNat_eq (by
      rw [BitVec.toNat_umod, BitVec.toNat_neg, show (4 : BitVec 32).toNat = 4 from rfl,
        show (0 : BitVec 32).toNat = 0 from rfl]; omega)]
    rfl

theorem and3_cases (off : BitVec 32) :
    off &&& 3 = 0 ∨ off &&& 3 = 1 ∨ off &&& 3 = 2 ∨ off &&& 3 = 3 := by
  have e : ∀ n, off.toNat % 4 = n → off &&& 3 = BitVec.ofNat 32 n := fun n h =>
    BitVec.eq_of_toNat_eq (by rw [toNat_and3, h, BitVec.toNat_ofNat]; omega)
  rcases (by omega : off.toNat % 4 = 0 ∨ off.toNat % 4 = 1 ∨ off.toNat % 4 = 2 ∨ off.toNat % 4 = 3)
    with h | h | h | h
  exacts [.inl (e 0 h), .inr (.inl (e 1 h)), .inr (.inr (.inl (e 2 h))), .inr (.inr (.inr (e 3 h)))]

/-! ## `pack_key8`, `pack_key16`, `pack_key32` -/

/-- `pack_key8(sel, key, mask, off, offmask)`: a test of the byte at `off`, shifted into its place
in the word at `off & ~3`. -/
def packKey8 (bo : ByteOrder) (sel : TcU32Sel) (key mask : U32) (off offmask : BitVec 32) :
    Int × TcU32Sel :=
  let (key, mask) :=
    if off &&& 3 = 0 then (key <<< 24, mask <<< 24)
    else if off &&& 3 = 1 then (key <<< 16, mask <<< 16)
    else if off &&& 3 = 2 then (key <<< 8, mask <<< 8)
    else (key, mask)
  packKey sel (bo.htonl key) (bo.htonl mask) (off &&& ~~~3) offmask

/-- `pack_key16`: shifts the half-word only when `off` is a multiple of 4. -/
def packKey16 (bo : ByteOrder) (sel : TcU32Sel) (key mask : U32) (off offmask : BitVec 32) :
    Int × TcU32Sel :=
  let (key, mask) := if off &&& 3 = 0 then (key <<< 16, mask <<< 16) else (key, mask)
  packKey sel (bo.htonl key) (bo.htonl mask) (off &&& ~~~3) offmask

def packKey32 (bo : ByteOrder) (sel : TcU32Sel) (key mask : U32) (off offmask : BitVec 32) :
    Int × TcU32Sel :=
  packKey sel (bo.htonl key) (bo.htonl mask) off offmask

/-- The left shift `pack_key8` applies: 24, 16, 8 or 0 as `off & 3` is 0, 1, 2 or 3. -/
def shift8 (off : BitVec 32) : Nat := 24 - 8 * (off &&& 3).toNat

/-- The left shift `pack_key16` applies. -/
def shift16 (off : BitVec 32) : Nat := if off &&& 3 = 0 then 16 else 0

/-- `opt_sel` after `memset(&opt_sel, 0, sizeof(opt_sel))`: no keys, and room for `n`. -/
def TcU32Sel.zeroed (n : Nat) : TcU32Sel := ⟨0, List.replicate n ⟨0, 0, 0, 0⟩⟩

@[simp] theorem zeroed_active (n : Nat) : (TcU32Sel.zeroed n).active = [] := rfl

@[simp] theorem zeroed_nkeys (n : Nat) : (TcU32Sel.zeroed n).nkeys.toNat = 0 := rfl

/-- What a pack that succeeded did: it returned 0, the selector after admits exactly the packets
the one before admits that also pass `test` (packets as a host of order `bo` loads them), and every
value stays inside its mask. -/
structure TcU32Sel.Adds (bo : ByteOrder) (sel : TcU32Sel) (r : Int × TcU32Sel) (test : Bytes → Bool) : Prop where
  ret : r.1 = 0
  admits : ∀ p, r.2.admits (bo.load p) = (sel.admits (bo.load p) && test p)
  ok : r.2.Ok

section Wrappers
variable (bo : ByteOrder) (sel : TcU32Sel) (key mask : U32) (off offmask : BitVec 32)

theorem packKey8_eq : packKey8 bo sel key mask off offmask =
    packKey sel (bo.htonl (key <<< shift8 off)) (bo.htonl (mask <<< shift8 off)) (off &&& ~~~3) offmask := by
  rcases and3_cases off with h | h | h | h <;> simp only [packKey8, shift8, h] <;> simp [BitVec.shiftLeft_zero]

theorem packKey16_eq : packKey16 bo sel key mask off offmask =
    packKey sel (bo.htonl (key <<< shift16 off)) (bo.htonl (mask <<< shift16 off)) (off &&& ~~~3) offmask := by
  unfold packKey16 shift16
  split_ifs <;> simp [BitVec.shiftLeft_zero]

/-- The key `pack_key8` packs. -/
def key8 : TcU32Key :=
  ⟨bo.htonl (mask <<< shift8 off), bo.htonl (key <<< shift8 off) &&& bo.htonl (mask <<< shift8 off),
    off &&& ~~~3, offmask⟩

/-- The key `pack_key16` packs. -/
def key16 : TcU32Key :=
  ⟨bo.htonl (mask <<< shift16 off), bo.htonl (key <<< shift16 off) &&& bo.htonl (mask <<< shift16 off),
    off &&& ~~~3, offmask⟩

/-- The key `pack_key32` packs. -/
def key32 : TcU32Key := ⟨bo.htonl mask, bo.htonl key &&& bo.htonl mask, off, offmask⟩

/-- The key `pack_key8` packs, for a mask below `2^8`, tests the byte at `off`. -/
theorem key8_admits (p : Bytes) (hm : mask.toNat < 2 ^ 8) :
    (key8 bo key mask off offmask).admits (bo.load p) =
      (p off &&& mask.setWidth 8 == key.setWidth 8 &&& mask.setWidth 8) := by
  have hr : (off &&& 3).toNat < 4 := by rw [toNat_and3]; omega
  rw [TcU32Key.admits, key8, ByteOrder.load_test_htonl,
    beWord_test_byte p _ key mask hm hr (by unfold shift8; omega), BitVec.ofNat_toNat, BitVec.setWidth_eq,
    and_not3_add]

/-- The key `pack_key16` packs, for a mask below `2^16`, tests the half-word at `off & ~3` when
`off` is a multiple of 4, else the one at `(off & ~3) + 2`. -/
theorem key16_admits (p : Bytes) (hm : mask.toNat < 2 ^ 16) :
    (key16 bo key mask off offmask).admits (bo.load p) =
      (be16 p ((off &&& ~~~3) + if off &&& 3 = 0 then 0 else 2) &&& mask.setWidth 16 ==
        key.setWidth 16 &&& mask.setWidth 16) := by
  rw [TcU32Key.admits, key16, ByteOrder.load_test_htonl, shift16]
  split_ifs
  · exact beWord_test_half p _ key mask hm (.inl ⟨rfl, rfl⟩)
  · exact beWord_test_half p _ key mask hm (.inr ⟨rfl, rfl⟩)

theorem key32_admits (p : Bytes) :
    (key32 bo key mask off offmask).admits (bo.load p) = (beWord p off &&& mask == key &&& mask) :=
  ByteOrder.load_test_htonl bo p off mask key

/-- `pack_key8` with a mask below `2^8` adds the test of the byte at `off`, on a host of either
byte order; it fails only where a key for the word at `off & ~3` was already there. -/
theorem packKey8_exact (hok : sel.Ok) (hn : sel.nkeys.toNat < 255) (hm : mask.toNat < 2 ^ 8) :
    sel.Adds bo (packKey8 bo sel key mask off offmask)
        (fun p => p off &&& mask.setWidth 8 == key.setWidth 8 &&& mask.setWidth 8) ∨
      (packKey8 bo sel key mask off offmask = (-1, sel) ∧
        ∃ k ∈ sel.active, k.off = off &&& ~~~3 ∧ k.offmask = offmask) := by
  rw [packKey8_eq]
  rcases packKey_spec hok hn with ⟨h0, hw, hl⟩ | ⟨he, hk | hal⟩
  · exact .inl ⟨h0, fun p => by rw [hw, ← key8_admits bo key mask off offmask p hm]; rfl, hl⟩
  · exact .inr ⟨he, hk⟩
  · exact absurd (srem_four_eq_zero (toNat_and_not3 off)) hal

theorem packKey8_exact_sample :
    (TcU32Sel.zeroed 10).Ok ∧ (TcU32Sel.zeroed 10).nkeys.toNat < 255 ∧ (0xff : U32).toNat < 2 ^ 8 ∧
      ((TcU32Sel.zeroed 10).Adds .little (packKey8 .little (TcU32Sel.zeroed 10) 6 0xff 9 0)
          (fun p => p 9 &&& (0xff : U32).setWidth 8 == (6 : U32).setWidth 8 &&& (0xff : U32).setWidth 8) ∨
        (packKey8 .little (TcU32Sel.zeroed 10) 6 0xff 9 0 = (-1, TcU32Sel.zeroed 10) ∧
          ∃ k ∈ (TcU32Sel.zeroed 10).active, k.off = 9 &&& ~~~3 ∧ k.offmask = 0)) :=
  ⟨by decide, by decide, by decide, packKey8_exact .little _ 6 0xff 9 0 (by decide) (by decide) (by decide)⟩

/-- `pack_key16` with a mask below `2^16` adds the test of the half-word at `off` when `off` is
even; at an odd `off` it tests the half-word at `(off & ~3) + 2` instead. -/
theorem packKey16_exact (hok : sel.Ok) (hn : sel.nkeys.toNat < 255) (hm : mask.toNat < 2 ^ 16) :
    sel.Adds bo (packKey16 bo sel key mask off offmask)
        (fun p => be16 p ((off &&& ~~~3) + if off &&& 3 = 0 then 0 else 2) &&& mask.setWidth 16 ==
          key.setWidth 16 &&& mask.setWidth 16) ∨
      (packKey16 bo sel key mask off offmask = (-1, sel) ∧
        ∃ k ∈ sel.active, k.off = off &&& ~~~3 ∧ k.offmask = offmask) := by
  rw [packKey16_eq]
  rcases packKey_spec hok hn with ⟨h0, hw, hl⟩ | ⟨he, hk | hal⟩
  · exact .inl ⟨h0, fun p => by rw [hw, ← key16_admits bo key mask off offmask p hm]; rfl, hl⟩
  · exact .inr ⟨he, hk⟩
  · exact absurd (srem_four_eq_zero (toNat_and_not3 off)) hal

theorem packKey16_exact_sample :
    (TcU32Sel.zeroed 10).Ok ∧ (TcU32Sel.zeroed 10).nkeys.toNat < 255 ∧ (0x3fff : U32).toNat < 2 ^ 16 ∧
      ((TcU32Sel.zeroed 10).Adds .little (packKey16 .little (TcU32Sel.zeroed 10) 0 0x3fff 6 0)
          (fun p => be16 p ((6 &&& ~~~3) + if (6 : BitVec 32) &&& 3 = 0 then 0 else 2) &&&
            (0x3fff : U32).setWidth 16 == (0 : U32).setWidth 16 &&& (0x3fff : U32).setWidth 16) ∨
        (packKey16 .little (TcU32Sel.zeroed 10) 0 0x3fff 6 0 = (-1, TcU32Sel.zeroed 10) ∧
          ∃ k ∈ (TcU32Sel.zeroed 10).active, k.off = 6 &&& ~~~3 ∧ k.offmask = 0)) :=
  ⟨by decide, by decide, by decide, packKey16_exact .little _ 0 0x3fff 6 0 (by decide) (by decide) (by decide)⟩

/-- `pack_key32` adds the test of the packet's network-order word at `off`, whatever the host's
byte order. -/
theorem packKey32_exact (hok : sel.Ok) (hn : sel.nkeys.toNat < 255) :
    sel.Adds bo (packKey32 bo sel key mask off offmask)
        (fun p => beWord p off &&& mask == key &&& mask) ∨
      (packKey32 bo sel key mask off offmask = (-1, sel) ∧
        ((∃ k ∈ sel.active, k.off = off ∧ k.offmask = offmask) ∨ off.srem 4 ≠ 0)) := by
  rcases packKey_spec hok hn with ⟨h0, hw, hl⟩ | h
  · exact .inl ⟨h0, fun p => by rw [packKey32, hw, ByteOrder.load_test_htonl], hl⟩
  · exact .inr h

theorem packKey32_exact_sample :
    (TcU32Sel.zeroed 20).Ok ∧ (TcU32Sel.zeroed 20).nkeys.toNat < 255 ∧
      ((TcU32Sel.zeroed 20).Adds .little (packKey32 .little (TcU32Sel.zeroed 20) 0x0a000001 0xffffffff 16 0)
          (fun p => beWord p 16 &&& 0xffffffff == 0x0a000001 &&& 0xffffffff) ∨
        (packKey32 .little (TcU32Sel.zeroed 20) 0x0a000001 0xffffffff 16 0 = (-1, TcU32Sel.zeroed 20) ∧
          ((∃ k ∈ (TcU32Sel.zeroed 20).active, k.off = 16 ∧ k.offmask = 0) ∨ (16 : BitVec 32).srem 4 ≠ 0))) :=
  ⟨by decide, by decide, packKey32_exact .little _ 0x0a000001 0xffffffff 16 0 (by decide) (by decide)⟩

theorem packKey8_fresh (hfresh : ∀ k ∈ sel.active, ¬(k.off = off &&& ~~~3 ∧ k.offmask = offmask))
    (hn : sel.nkeys.toNat < 255) :
    (packKey8 bo sel key mask off offmask).2.active = sel.active ++ [key8 bo key mask off offmask] ∧
      (packKey8 bo sel key mask off offmask).2.nkeys.toNat = sel.nkeys.toNat + 1 := by
  rw [packKey8_eq]
  exact (packKey_fresh hfresh (srem_four_eq_zero (toNat_and_not3 off)) hn).2

theorem packKey16_fresh (hfresh : ∀ k ∈ sel.active, ¬(k.off = off &&& ~~~3 ∧ k.offmask = offmask))
    (hn : sel.nkeys.toNat < 255) :
    (packKey16 bo sel key mask off offmask).2.active = sel.active ++ [key16 bo key mask off offmask] ∧
      (packKey16 bo sel key mask off offmask).2.nkeys.toNat = sel.nkeys.toNat + 1 := by
  rw [packKey16_eq]
  exact (packKey_fresh hfresh (srem_four_eq_zero (toNat_and_not3 off)) hn).2

theorem packKey32_fresh (hfresh : ∀ k ∈ sel.active, ¬(k.off = off ∧ k.offmask = offmask))
    (hal : off.srem 4 = 0) (hn : sel.nkeys.toNat < 255) :
    (packKey32 bo sel key mask off offmask).2.active = sel.active ++ [key32 bo key mask off offmask] ∧
      (packKey32 bo sel key mask off offmask).2.nkeys.toNat = sel.nkeys.toNat + 1 :=
  (packKey_fresh hfresh hal hn).2

/-- `pack_key16` into the word of a key whose mask is disjoint from the new one merges the two. -/
theorem packKey16_shared {pre post : List TcU32Key} {k : TcU32Key} (hact : sel.active = pre ++ k :: post)
    (hpre : ∀ k' ∈ pre, ¬(k'.off = off &&& ~~~3 ∧ k'.offmask = offmask))
    (hk : k.off = off &&& ~~~3 ∧ k.offmask = offmask) (hd : bo.htonl (mask <<< shift16 off) &&& k.mask = 0) :
    (packKey16 bo sel key mask off offmask).2.active = pre ++
      { k with val := k.val ||| (key16 bo key mask off offmask).val,
               mask := k.mask ||| (key16 bo key mask off offmask).mask } :: post ∧
      (packKey16 bo sel key mask off offmask).2.nkeys = sel.nkeys := by
  rw [packKey16_eq]
  exact (packKey_shared hact hpre hk (by rw [hd]; exact BitVec.and_zero)).2

end Wrappers

/-! ## `pack_ip6` -/

/-- The loop of `pack_ip6` over the address words `is`, `mask` as the rounds before left it: each
round passes `mask` through `htonl` again, and the loop stops at the first nonzero return. -/
def packIp6Loop (bo : ByteOrder) (addr : Bytes) (off offmask : BitVec 32) :
    List Nat → U32 → TcU32Sel → Int × TcU32Sel
  | [], _, sel => (0, sel)
  | i :: is, mask, sel =>
    let key := bo.htonl (bo.load addr (BitVec.ofNat 32 (4 * i)))
    let mask := bo.htonl mask
    let r := packKey sel key mask (off + 4 * (BitVec.ofNat 32 i - 1)) offmask
    if r.1 ≠ 0 then r else packIp6Loop bo addr off offmask is mask r.2

/-- `pack_ip6(sel, addr, mask, off, offmask)`. -/
def packIp6 (bo : ByteOrder) (sel : TcU32Sel) (addr : Bytes) (mask : U32) (off offmask : BitVec 32) :
    Int × TcU32Sel :=
  packIp6Loop bo addr off offmask (List.range 4) mask sel

/-- The test `pack_ip6` adds for address word `i`: the packet's network-order word at
`off + 4 (i - 1)` against the host's `uint32_t` load of the address word, which on a
little-endian host is the word byte-reversed, under `mask` in even rounds and `htonl(mask)` in
odd ones. -/
def ip6WordTest (bo : ByteOrder) (addr : Bytes) (mask : U32) (off : BitVec 32) (i : Nat) (p : Bytes) :
    Bool :=
  let m := if i % 2 = 0 then mask else bo.htonl mask
  beWord p (off + 4 * (BitVec.ofNat 32 i - 1)) &&& m == bo.load addr (BitVec.ofNat 32 (4 * i)) &&& m

theorem ip6_place_ne {off : BitVec 32} {i j : Nat} (hi : i < 4) (hj : j < 4) (h : i ≠ j) :
    off + 4 * (BitVec.ofNat 32 i - 1) ≠ off + 4 * (BitVec.ofNat 32 j - 1) := by
  bv_omega

theorem ip6_place_aligned {off : BitVec 32} (hal : off.toNat % 4 = 0) (i : Nat) :
    (off + 4 * (BitVec.ofNat 32 i - 1)).srem 4 = 0 :=
  srem_four_eq_zero (by bv_omega)

theorem ok_of_appended {sel sel' : TcU32Sel} {key mask : U32} {off offmask : BitVec 32} (hok : sel.Ok)
    (h : sel'.active = sel.active ++ [⟨mask, key &&& mask, off, offmask⟩]) : sel'.Ok := by
  rw [TcU32Sel.Ok, h]
  intro k hk
  rcases List.mem_append.mp hk with hk | hk
  · exact hok k hk
  · rw [List.mem_singleton.mp hk]; exact masked_ok key mask

section Ip6
variable (bo : ByteOrder) (addr : Bytes) (mask : U32) (off offmask : BitVec 32)

/-- The rounds `j, ..., j + n - 1` of `pack_ip6` on a selector holding no key at their places
each append their key, and add the tests of their words. -/
theorem packIp6Loop_adds (hal : off.toNat % 4 = 0) : ∀ (n j : Nat) (sel : TcU32Sel), j + n ≤ 4 →
    sel.Ok → sel.nkeys.toNat + n < 256 →
    (∀ i, j ≤ i → i < j + n → ∀ k ∈ sel.active,
      ¬(k.off = off + 4 * (BitVec.ofNat 32 i - 1) ∧ k.offmask = offmask)) →
    sel.Adds bo (packIp6Loop bo addr off offmask (List.range' j n)
        (if j % 2 = 0 then mask else bo.htonl mask) sel)
      (fun p => (List.range' j n).all fun i => ip6WordTest bo addr mask off i p) ∧
    (packIp6Loop bo addr off offmask (List.range' j n)
        (if j % 2 = 0 then mask else bo.htonl mask) sel).2.nkeys.toNat = sel.nkeys.toNat + n
  | 0, j, sel, _, hok, _, _ => ⟨⟨rfl, fun p => by simp [packIp6Loop], hok⟩, rfl⟩
  | n + 1, j, sel, hj, hok, hn, hfresh => by
    have hround : bo.htonl (if j % 2 = 0 then mask else bo.htonl mask) =
        if (j + 1) % 2 = 0 then mask else bo.htonl mask := by
      split_ifs <;> first | omega | simp
    obtain ⟨h0, ha, hc⟩ := @packKey_fresh sel (bo.htonl (bo.load addr (BitVec.ofNat 32 (4 * j))))
      (bo.htonl (if j % 2 = 0 then mask else bo.htonl mask)) (off + 4 * (BitVec.ofNat 32 j - 1)) offmask
      (fun k hk => hfresh j le_rfl (by omega) k hk) (ip6_place_aligned hal j) (by omega)
    have e : packIp6Loop bo addr off offmask (List.range' j (n + 1))
        (if j % 2 = 0 then mask else bo.htonl mask) sel =
        packIp6Loop bo addr off offmask (List.range' (j + 1) n) (if (j + 1) % 2 = 0 then mask else bo.htonl mask)
          (packKey sel (bo.htonl (bo.load addr (BitVec.ofNat 32 (4 * j))))
            (bo.htonl (if j % 2 = 0 then mask else bo.htonl mask)) (off + 4 * (BitVec.ofNat 32 j - 1)) offmask).2 := by
      rw [List.range'_succ, packIp6Loop]
      simp only [h0, ne_eq, not_true_eq_false, if_false]
      rw [hround]
    obtain ⟨hadds, hnk⟩ := packIp6Loop_adds hal n (j + 1) _ (by omega) (ok_of_appended hok ha) (by omega)
      (fun i hi hi' k hk => by
        rcases List.mem_append.mp (ha ▸ hk) with hk | hk
        · exact hfresh i (by omega) (by omega) k hk
        · rw [List.mem_singleton.mp hk]
          exact fun h => ip6_place_ne (by omega) (by omega) (by omega : j ≠ i) h.1)
    rw [e]
    refine ⟨⟨hadds.ret, fun p => ?_, hadds.ok⟩, by rw [hnk, hc]; omega⟩
    rw [hadds.admits, TcU32Sel.admits, ha, List.all_append, List.range'_succ, List.all_cons]
    simp only [List.all_cons, List.all_nil, Bool.and_true, TcU32Key.admits, ByteOrder.load_test_htonl,
      ip6WordTest, Bool.and_assoc]
    rfl

/-- `pack_ip6` on a selector with room for four more keys and none at the places of the four
address words: it returns 0, counts four keys, and adds for each word `i` the test of the
packet's network-order word at `off + 4 (i - 1)` (the words from `off - 4` to `off + 8`)
against the host's `uint32_t` load of the address word. -/
theorem packIp6_exact (sel : TcU32Sel) (hok : sel.Ok) (hn : sel.nkeys.toNat ≤ 251)
    (hal : off.toNat % 4 = 0)
    (hfresh : ∀ k ∈ sel.active, ∀ i < 4, ¬(k.off = off + 4 * (BitVec.ofNat 32 i - 1) ∧ k.offmask = offmask)) :
    sel.Adds bo (packIp6 bo sel addr mask off offmask)
        (fun p => (List.range 4).all fun i => ip6WordTest bo addr mask off i p) ∧
      (packIp6 bo sel addr mask off offmask).2.nkeys.toNat = sel.nkeys.toNat + 4 := by
  rw [packIp6, List.range_eq_range']
  exact packIp6Loop_adds bo addr mask off offmask hal 4 0 sel le_rfl hok (by omega)
    fun i _ hi k hk => hfresh k hk i hi

theorem packIp6_exact_sample :
    (TcU32Sel.zeroed 20).Ok ∧ (TcU32Sel.zeroed 20).nkeys.toNat ≤ 251 ∧ (16 : BitVec 32).toNat % 4 = 0 ∧
      (∀ k ∈ (TcU32Sel.zeroed 20).active, ∀ i < 4,
        ¬(k.off = 16 + 4 * (BitVec.ofNat 32 i - 1) ∧ k.offmask = 0)) ∧
      (TcU32Sel.zeroed 20).Adds .little (packIp6 .little (TcU32Sel.zeroed 20) (fun _ => 1) 0xffffffff 16 0)
          (fun p => (List.range 4).all fun i => ip6WordTest .little (fun _ => 1) 0xffffffff 16 i p) ∧
        (packIp6 .little (TcU32Sel.zeroed 20) (fun _ => 1) 0xffffffff 16 0).2.nkeys.toNat = 0 + 4 :=
  ⟨by decide, by decide, by decide, (fun _ h => by cases h),
    packIp6_exact .little (fun _ => 1) 0xffffffff 16 0 _ (by decide) (by decide) (by decide) fun _ h => by cases h⟩

end Ip6

/-! ## The filters -/

/-- The family of a `struct sockaddr_store`; for `tc_add_filter_tap2dev`, whether its `proto`
argument is `AF_INET`. -/
inductive SaFamily
  | inet
  | inet6
  deriving DecidableEq, Repr

/-- `struct sockaddr_store` (declared in the daemon's header, not among the sources) as the filters
read it: the family, and the bytes of the address, where `sin_port` and `sin6_port` sit at offset
2, `sin_addr` at 4 and `sin6_addr` at 8. -/
structure SockaddrStore where
  family : SaFamily
  mem : Bytes

/-- The address match the filters pack at `off` (the destination at 16, the source at 12):
`pack_key32` of `ntohl(sin_addr.s_addr)` for IPv4, `pack_ip6` of `sin6_addr` otherwise, both
under an all-ones mask. -/
def packAddr (bo : ByteOrder) (sel : TcU32Sel) (family : SaFamily) (ip : SockaddrStore)
    (off : BitVec 32) : TcU32Sel :=
  if family = .inet then (packKey32 bo sel (bo.ntohl (bo.load ip.mem 4)) 0xffffffff off 0).2
  else (packIp6 bo sel (fun j => ip.mem (8 + j)) 0xffffffff off 0).2

/-- The selector `tc_add_filter_link` sends. The hash key it sets beside it (`hmask`, `hoff`)
picks a bucket of the linked table and takes no part in the match. -/
def linkSel (bo : ByteOrder) (ip : SockaddrStore) : TcU32Sel :=
  packAddr bo (TcU32Sel.zeroed 20) ip.family ip 16

/-- The selector `tc_add_filter_tap2dev` sends; `family` is its `proto` argument. -/
def tap2devSel (bo : ByteOrder) (family : SaFamily) : Option SockaddrStore → TcU32Sel
  | some ip => packAddr bo (TcU32Sel.zeroed 20) family ip 16
  | none =>
    if family = .inet then (packKey32 bo (TcU32Sel.zeroed 20) (bo.ntohl 0) 0 0 0).2
    else (packIp6 bo (TcU32Sel.zeroed 20) (fun _ => 0) 0xffffffff 0 0).2

/-- The selector `tc_add_filter_dev2tap` sends: the transport protocol, the fragment bits, the
source address and port when `src_ip` is given, and the destination address and port, in the
family of `dst_ip`. The source ignores what the `pack_*` calls return. -/
def dev2tapSel (bo : ByteOrder) (l4Proto : Int) (dstIp : SockaddrStore) (srcIp : Option SockaddrStore) :
    TcU32Sel :=
  let sel := (packKey8 bo (TcU32Sel.zeroed 10) (BitVec.ofInt 32 l4Proto) 0xff 9 0).2
  let sel := (packKey16 bo sel 0 0x3fff 6 0).2
  let sel := match srcIp with
    | some srcIp => (packKey16 bo (packAddr bo sel dstIp.family srcIp 12)
        ((bo.ntohs (bo.load16 srcIp.mem 2)).setWidth 32) 0xffff 20 0).2
    | none => sel
  let sel := packAddr bo sel dstIp.family dstIp 16
  (packKey16 bo sel ((bo.ntohs (bo.load16 dstIp.mem 2)).setWidth 32) 0xffff 22 0).2

/-- `10.0.0.1`, port 80, as a `sockaddr_in`. -/
def sampleInetAddr : SockaddrStore :=
  ⟨.inet, fun j => if j = 3 then 80 else if j = 4 then 10 else if j = 7 then 1 else 0⟩

/-- `::1` as a `sockaddr_in6`. -/
def sampleInet6Addr : SockaddrStore := ⟨.inet6, fun j => if j = 23 then 1 else 0⟩

/-- An IPv6 header from `::2` to `::1`: version 6 in byte 0, the source address in bytes 8 to 23,
the destination address in bytes 24 to 39. -/
def sampleInet6Packet : Bytes := fun j => if j = 0 then 0x60 else if j = 23 then 2 else if j = 39 then 1 else 0

theorem admits_eq_all (word : BitVec 32 → U32) (sel : TcU32Sel) :
    sel.admits word = sel.active.all (·.admits word) := rfl

@[simp] theorem zeroed_admits (n : Nat) (word : BitVec 32 → U32) : (TcU32Sel.zeroed n).admits word = true :=
  rfl

theorem admits_appended {sel sel' : TcU32Sel} {k : TcU32Key} (h : sel'.active = sel.active ++ [k])
    (word : BitVec 32 → U32) : sel'.admits word = (sel.admits word && k.admits word) := by
  rw [admits_eq_all, h, List.all_append, List.all_cons, List.all_nil, Bool.and_true]; rfl

/-- A key merged into another of the same word, their masks disjoint, tests both. -/
theorem merged_admits (word : BitVec 32 → U32) {k k' : TcU32Key} (hk : k.val &&& ~~~k.mask = 0)
    (hk' : k'.val &&& ~~~k'.mask = 0) (hd : k'.mask &&& k.mask = 0) (hoff : k'.off = k.off) :
    ({ k with val := k.val ||| k'.val, mask := k.mask ||| k'.mask } : TcU32Key).admits word =
      (k.admits word && k'.admits word) := by
  unfold TcU32Key.admits
  dsimp only
  rw [hoff, Bool.eq_iff_iff, Bool.and_eq_true, beq_iff_eq, beq_iff_eq, beq_iff_eq]
  exact merged_iff hk hk' (by rw [hd]; exact BitVec.and_zero)

@[simp] theorem ntohl_zero (bo : ByteOrder) : bo.ntohl 0 = 0 := by
  cases bo <;> rfl

theorem and_ones (x : U32) : x &&& 4294967295#32 = x := BitVec.and_allOnes

theorem and_ffff (x : U16) : x &&& 65535#16 = x := BitVec.and_allOnes

theorem and_ff (x : U8) : x &&& 255#8 = x := BitVec.and_allOnes

/-- IPv4 filters: `tc_add_filter_link`, and `tc_add_filter_tap2dev` with an address, admit exactly
the packets whose destination address (the word at 16) is that address, and
`tc_add_filter_tap2dev` without one admits every packet; each selector holds one key. -/
theorem addrFilter_inet (bo : ByteOrder) (ip : SockaddrStore) (hinet : ip.family = .inet) :
    (∀ p, (linkSel bo ip).admits (bo.load p) = (beWord p 16 == beWord ip.mem 4)) ∧
    (∀ p, (tap2devSel bo .inet (some ip)).admits (bo.load p) = (beWord p 16 == beWord ip.mem 4)) ∧
    (∀ p, (tap2devSel bo .inet none).admits (bo.load p) = true) ∧
    (linkSel bo ip).nkeys.toNat = 1 ∧ (tap2devSel bo .inet (some ip)).nkeys.toNat = 1 ∧
      (tap2devSel bo .inet none).nkeys.toNat = 1 := by
  obtain ⟨a, n⟩ := packKey32_fresh bo (TcU32Sel.zeroed 20) (bo.ntohl (bo.load ip.mem 4)) 0xffffffff 16 0
    (by simp) (by decide) (by simp)
  obtain ⟨a0, n0⟩ := packKey32_fresh bo (TcU32Sel.zeroed 20) (bo.ntohl 0) 0 0 0 (by simp) (by decide) (by simp)
  have e1 : linkSel bo ip = (packKey32 bo (TcU32Sel.zeroed 20) (bo.ntohl (bo.load ip.mem 4)) 0xffffffff 16 0).2 := by
    simp only [linkSel, packAddr, hinet, ↓reduceIte]
  have e2 : tap2devSel bo .inet none = (packKey32 bo (TcU32Sel.zeroed 20) (bo.ntohl 0) 0 0 0).2 := by
    simp only [tap2devSel, ↓reduceIte]
  have e3 : tap2devSel bo .inet (some ip) =
      (packKey32 bo (TcU32Sel.zeroed 20) (bo.ntohl (bo.load ip.mem 4)) 0xffffffff 16 0).2 := by
    simp only [tap2devSel, packAddr, ↓reduceIte]
  refine ⟨fun p => ?_, fun p => ?_, fun p => ?_, by rw [e1, n]; rfl, by rw [e3, n]; rfl, by rw [e2, n0]; rfl⟩
  · rw [e1, admits_appended a, key32_admits]; simp [and_ones]
  · rw [e3, admits_appended a, key32_admits]; simp [and_ones]
  · rw [e2, admits_appended a0, key32_admits]; simp

theorem addrFilter_inet_sample :
    sampleInetAddr.family = .inet ∧
    (∀ p, (linkSel .little sampleInetAddr).admits (ByteOrder.little.load p) =
      (beWord p 16 == beWord sampleInetAddr.mem 4)) ∧
    (∀ p, (tap2devSel .little .inet (some sampleInetAddr)).admits (ByteOrder.little.load p) =
      (beWord p 16 == beWord sampleInetAddr.mem 4)) ∧
    (∀ p, (tap2devSel .little .inet none).admits (ByteOrder.little.load p) = true) ∧
    (linkSel .little sampleInetAddr).nkeys.toNat = 1 ∧
      (tap2devSel .little .inet (some sampleInetAddr)).nkeys.toNat = 1 ∧
      (tap2devSel .little .inet none).nkeys.toNat = 1 :=
  ⟨rfl, addrFilter_inet .little sampleInetAddr rfl⟩

@[simp] theorem htonl_ones (bo : ByteOrder) : bo.htonl 4294967295#32 = 4294967295#32 := by
  cases bo <;> rfl

theorem load_shift (bo : ByteOrder) (p : Bytes) (b o : BitVec 32) :
    bo.load (fun j => p (b + j)) o = bo.load p (b + o) := by
  cases bo <;> simp only [ByteOrder.load, beWord, BitVec.add_assoc]

theorem ip6WordTest_ones (bo : ByteOrder) (addr : Bytes) (off : BitVec 32) (i : Nat) (p : Bytes) :
    ip6WordTest bo addr 0xffffffff off i p =
      (beWord p (off + 4 * (BitVec.ofNat 32 i - 1)) == bo.load addr (BitVec.ofNat 32 (4 * i))) := by
  unfold ip6WordTest
  split_ifs <;> simp only [BitVec.ofNat_eq_ofNat, htonl_ones, and_ones]

/-- What `pack_ip6` with an all-ones mask adds to an empty selector, as a condition on the packet. -/
theorem packIp6_zeroed (bo : ByteOrder) (addr : Bytes) (off : BitVec 32) (hal : off.toNat % 4 = 0)
    (n : Nat) (p : Bytes) :
    (packIp6 bo (TcU32Sel.zeroed n) addr 0xffffffff off 0).2.admits (bo.load p) = true ↔
      ∀ i < 4, beWord p (off + 4 * (BitVec.ofNat 32 i - 1)) = bo.load addr (BitVec.ofNat 32 (4 * i)) := by
  have h := (packIp6Loop_adds bo addr 0xffffffff off 0 hal 4 0 (TcU32Sel.zeroed n) le_rfl
    (fun _ h => by cases h) (by simp) (fun _ _ _ _ h => by cases h)).1.admits p
  simp only [Nat.zero_mod, ↓reduceIte, ← List.range_eq_range'] at h
  rw [packIp6, h, zeroed_admits, Bool.true_and, List.all_eq_true]
  simp only [List.mem_range, ip6WordTest_ones, beq_iff_eq]

/-- IPv6 filters: the selector `tc_add_filter_link`, and `tc_add_filter_tap2dev` with an address,
send admits exactly the packets whose network-order words at 12, 16, 20 and 24 are the host's
`uint32_t` loads of the four words of `sin6_addr`. That is bytes 12 to 27 of the IPv6 header, the
end of the source address and the start of the destination address (bytes 24 to 39), and on a
little-endian host each word of the address compared byte-reversed. -/
theorem addrFilter_inet6 (bo : ByteOrder) (ip : SockaddrStore) (h6 : ip.family = .inet6) (p : Bytes) :
    ((linkSel bo ip).admits (bo.load p) = true ↔
      ∀ i < 4, beWord p (12 + 4 * BitVec.ofNat 32 i) = bo.load ip.mem (8 + 4 * BitVec.ofNat 32 i)) ∧
    ((tap2devSel bo .inet6 (some ip)).admits (bo.load p) = true ↔
      ∀ i < 4, beWord p (12 + 4 * BitVec.ofNat 32 i) = bo.load ip.mem (8 + 4 * BitVec.ofNat 32 i)) := by
  have key := packIp6_zeroed bo (fun j => ip.mem (8 + j)) 16 (by decide) 20 p
  simp only [load_shift] at key
  have e : ∀ i : Nat, (16 : BitVec 32) + 4 * (BitVec.ofNat 32 i - 1) = 12 + 4 * BitVec.ofNat 32 i ∧
      (8 : BitVec 32) + BitVec.ofNat 32 (4 * i) = 8 + 4 * BitVec.ofNat 32 i := fun i => by
    constructor <;> bv_omega
  simp only [e] at key
  simp only [linkSel, tap2devSel, packAddr, h6, reduceCtorEq, ↓reduceIte]
  exact ⟨key, key⟩

theorem addrFilter_inet6_sample :
    sampleInet6Addr.family = .inet6 ∧
    ((linkSel .big sampleInet6Addr).admits (ByteOrder.big.load sampleInet6Packet) = true ↔
      ∀ i < 4, beWord sampleInet6Packet (12 + 4 * BitVec.ofNat 32 i) =
        ByteOrder.big.load sampleInet6Addr.mem (8 + 4 * BitVec.ofNat 32 i)) ∧
    ((tap2devSel .big .inet6 (some sampleInet6Addr)).admits (ByteOrder.big.load sampleInet6Packet) = true ↔
      ∀ i < 4, beWord sampleInet6Packet (12 + 4 * BitVec.ofNat 32 i) =
        ByteOrder.big.load sampleInet6Addr.mem (8 + 4 * BitVec.ofNat 32 i)) :=
  ⟨rfl, addrFilter_inet6 .big sampleInet6Addr rfl sampleInet6Packet⟩

/-- On either host, the IPv6 link filter for `::1` refuses a packet sent to `::1`. -/
example (bo : ByteOrder) :
    (linkSel bo sampleInet6Addr).admits (bo.load sampleInet6Packet) = false := by
  cases bo <;> decide

theorem load_zero (bo : ByteOrder) (o : BitVec 32) : bo.load (fun _ => 0) o = 0 := by
  cases bo <;> simp only [ByteOrder.load, beWord] <;> decide

theorem beWord_eq_zero {p : Bytes} {o : BitVec 32} (h : beWord p o = 0) : p o = 0 :=
  (bytes_inj.mp (h.trans (by decide : (0 : U32) = 0#8 ++ 0#8 ++ 0#8 ++ 0#8))).1

/-- `tc_add_filter_tap2dev` for IPv6 without an address, whose command-line branch matches every
packet (`match u8 0 0`), sends a selector that admits exactly the packets whose words at -4, 0, 4
and 8 are zero: it refuses every packet whose first byte is nonzero, and so every IPv6 packet,
whose first byte holds the version 6. -/
theorem tap2devSel_inet6_none (bo : ByteOrder) (p : Bytes) :
    ((tap2devSel bo .inet6 none).admits (bo.load p) = true ↔
      ∀ i < 4, beWord p (4 * BitVec.ofNat 32 i - 4) = 0) ∧
    (p 0 ≠ 0 → (tap2devSel bo .inet6 none).admits (bo.load p) = false) := by
  have key := packIp6_zeroed bo (fun _ => 0) 0 (by decide) 20 p
  have e : ∀ i : Nat, (0 : BitVec 32) + 4 * (BitVec.ofNat 32 i - 1) = 4 * BitVec.ofNat 32 i - 4 := fun i => by
    bv_omega
  simp only [load_zero, e] at key
  have h : (tap2devSel bo .inet6 none) = (packIp6 bo (TcU32Sel.zeroed 20) (fun _ => 0) 0xffffffff 0 0).2 := by
    simp only [tap2devSel, reduceCtorEq, ↓reduceIte]
  rw [h]
  refine ⟨key, fun h0 => ?_⟩
  rw [← Bool.not_eq_true, key]
  exact fun hall => h0 (beWord_eq_zero (hall 1 (by decide)))

/-- The IPv4 filter `tc_add_filter_dev2tap` sends admits exactly the packets of the flow: the
protocol byte (at 9) is `l4_proto` taken as a byte, the fragment offset and more-fragments bits
(the half-word at 6 under `0x3fff`) are zero, the source address and port (at 12 and 20) are those
of `src_ip` when it is given, and the destination address and port (at 16 and 22) those of
`dst_ip`. Every value lies inside its mask, the selector holds at most 5 of the 10 keys
`opt_sel` has room for, and one key tests the word at 20, which holds both ports. -/
theorem dev2tapSel_inet (bo : ByteOrder) (l4Proto : Int) (dstIp : SockaddrStore)
    (srcIp : Option SockaddrStore) (hinet : dstIp.family = .inet) :
    (dev2tapSel bo l4Proto dstIp srcIp).Ok ∧ (dev2tapSel bo l4Proto dstIp srcIp).nkeys.toNat ≤ 5 ∧
    (dev2tapSel bo l4Proto dstIp srcIp).active.countP (·.off == 20) = 1 ∧
    ∀ p, (dev2tapSel bo l4Proto dstIp srcIp).admits (bo.load p) =
      (p 9 == (BitVec.ofInt 32 l4Proto).setWidth 8 && be16 p 6 &&& 0x3fff == 0 &&
        (match srcIp with
         | some srcIp => beWord p 12 == beWord srcIp.mem 4 && be16 p 20 == be16 srcIp.mem 2
         | none => true) &&
        beWord p 16 == beWord dstIp.mem 4 && be16 p 22 == be16 dstIp.mem 2) := by
  simp only [dev2tapSel, packAddr, hinet, ↓reduceIte]
  obtain ⟨a1, n1⟩ := packKey8_fresh bo (TcU32Sel.zeroed 10) (BitVec.ofInt 32 l4Proto) 0xff 9 0
    (by simp) (by simp)
  generalize (packKey8 bo (TcU32Sel.zeroed 10) (BitVec.ofInt 32 l4Proto) 0xff 9 0).2 = T1 at a1 n1 ⊢
  obtain ⟨a2, n2⟩ := packKey16_fresh bo T1 0 0x3fff 6 0 (by simp [a1, key8]) (by simp [n1])
  generalize (packKey16 bo T1 0 0x3fff 6 0).2 = T2 at a2 n2 ⊢
  cases srcIp with
  | none =>
    dsimp only
    obtain ⟨a5, n5⟩ := packKey32_fresh bo T2 (bo.ntohl (bo.load dstIp.mem 4)) 0xffffffff 16 0
      (by simp [a2, a1, key8, key16]) (by decide) (by simp [n2, n1])
    generalize (packKey32 bo T2 (bo.ntohl (bo.load dstIp.mem 4)) 0xffffffff 16 0).2 = T5 at a5 n5 ⊢
    obtain ⟨a6, n6⟩ := packKey16_fresh bo T5 ((bo.ntohs (bo.load16 dstIp.mem 2)).setWidth 32) 0xffff 22 0
      (by simp [a5, a2, a1, key8, key16, key32]) (by simp [n5, n2, n1])
    generalize (packKey16 bo T5 ((bo.ntohs (bo.load16 dstIp.mem 2)).setWidth 32) 0xffff 22 0).2 = T6 at a6 n6 ⊢
    refine ⟨ok_of_appended (ok_of_appended (ok_of_appended (ok_of_appended (fun _ h => by cases h) a1) a2) a5) a6,
      by simp [n6, n5, n2, n1], by simp [a6, a5, a2, a1, key8, key16, key32], fun p => ?_⟩
    rw [admits_appended a6, admits_appended a5, admits_appended a2, admits_appended a1, zeroed_admits,
      key8_admits _ _ _ _ _ p (by decide), key16_admits _ _ _ _ _ p (by decide), key32_admits,
      key16_admits _ _ _ _ _ p (by decide)]
    simp [and_ff, and_ffff, and_ones]
  | some srcIp =>
    dsimp only
    obtain ⟨a3, n3⟩ := packKey32_fresh bo T2 (bo.ntohl (bo.load srcIp.mem 4)) 0xffffffff 12 0
      (by simp [a2, a1, key8, key16]) (by decide) (by simp [n2, n1])
    generalize (packKey32 bo T2 (bo.ntohl (bo.load srcIp.mem 4)) 0xffffffff 12 0).2 = T3 at a3 n3 ⊢
    obtain ⟨a4, n4⟩ := packKey16_fresh bo T3 ((bo.ntohs (bo.load16 srcIp.mem 2)).setWidth 32) 0xffff 20 0
      (by simp [a3, a2, a1, key8, key16, key32]) (by simp [n3, n2, n1])
    generalize (packKey16 bo T3 ((bo.ntohs (bo.load16 srcIp.mem 2)).setWidth 32) 0xffff 20 0).2 = T4
      at a4 n4 ⊢
    obtain ⟨a5, n5⟩ := packKey32_fresh bo T4 (bo.ntohl (bo.load dstIp.mem 4)) 0xffffffff 16 0
      (by simp [a4, a3, a2, a1, key8, key16, key32]) (by decide) (by simp [n4, n3, n2, n1])
    generalize (packKey32 bo T4 (bo.ntohl (bo.load dstIp.mem 4)) 0xffffffff 16 0).2 = T5 at a5 n5 ⊢
    have hd : bo.htonl ((0xffff : U32) <<< shift16 22) &&&
        (key16 bo ((bo.ntohs (bo.load16 srcIp.mem 2)).setWidth 32) 0xffff 20 0).mask = 0 := by
      show _ &&& bo.htonl _ = 0
      rw [← ByteOrder.htonl_and, show ((0xffff : U32) <<< shift16 22 &&& (0xffff : U32) <<< shift16 20) = 0 by decide,
        ByteOrder.htonl_zero]
    obtain ⟨a6, n6⟩ := @packKey16_shared bo T5 ((bo.ntohs (bo.load16 dstIp.mem 2)).setWidth 32) 0xffff 22 0
      [key8 bo (BitVec.ofInt 32 l4Proto) 0xff 9 0, key16 bo 0 0x3fff 6 0,
        key32 bo (bo.ntohl (bo.load srcIp.mem 4)) 0xffffffff 12 0]
      [key32 bo (bo.ntohl (bo.load dstIp.mem 4)) 0xffffffff 16 0]
      (key16 bo ((bo.ntohs (bo.load16 srcIp.mem 2)).setWidth 32) 0xffff 20 0)
      (by rw [a5, a4, a3, a2, a1]; rfl) (by simp [key8, key16, key32]) (by simp [key16]) hd
    generalize (packKey16 bo T5 ((bo.ntohs (bo.load16 dstIp.mem 2)).setWidth 32) 0xffff 22 0).2 = T6
      at a6 n6 ⊢
    refine ⟨?_, by simp [n6, n5, n4, n3, n2, n1], by simp [a6, key8, key16, key32], fun p => ?_⟩
    · rw [TcU32Sel.Ok, a6]
      intro k hk
      simp only [List.mem_append, List.mem_cons, List.mem_singleton, List.not_mem_nil, or_false] at hk
      rcases hk with (rfl | rfl | rfl) | rfl | rfl <;>
        first | exact masked_ok _ _ | exact merged_ok (masked_ok _ _) (masked_ok _ _)
    · rw [admits_eq_all, a6]
      simp only [List.all_append, List.all_cons, List.all_nil, Bool.and_true]
      rw [@merged_admits (bo.load p) (key16 bo ((bo.ntohs (bo.load16 srcIp.mem 2)).setWidth 32) 0xffff 20 0)
        (key16 bo ((bo.ntohs (bo.load16 dstIp.mem 2)).setWidth 32) 0xffff 22 0) (masked_ok _ _) (masked_ok _ _)
        hd rfl]
      simp (disch := decide) only [key8_admits, key16_admits, key32_admits]
      simp [and_ff, and_ffff, and_ones]
      simp only [Bool.and_assoc, Bool.and_comm, Bool.and_left_comm]

theorem dev2tapSel_inet_sample :
    sampleInetAddr.family = .inet ∧
    (dev2tapSel .little 6 sampleInetAddr none).Ok ∧ (dev2tapSel .little 6 sampleInetAddr none).nkeys.toNat ≤ 5 ∧
    (dev2tapSel .little 6 sampleInetAddr none).active.countP (·.off == 20) = 1 ∧
    ∀ p, (dev2tapSel .little 6 sampleInetAddr none).admits (ByteOrder.little.load p) =
      (p 9 == (BitVec.ofInt 32 6).setWidth 8 && be16 p 6 &&& 0x3fff == 0 && true &&
        beWord p 16 == beWord sampleInetAddr.mem 4 && be16 p 22 == be16 sampleInetAddr.mem 2) :=
  ⟨rfl, dev2tapSel_inet .little 6 sampleInetAddr none rfl⟩

/-! ## Later keys only narrow a selector -/

/-- `sel'` admits only packets `sel` admits, keeps every value inside its mask, and holds at most
`n` more keys. -/
structure TcU32Sel.Narrows (n : Nat) (sel sel' : TcU32Sel) : Prop where
  ok : sel'.Ok
  nkeys_le : sel'.nkeys.toNat ≤ sel.nkeys.toNat + n
  admits : ∀ word, sel'.admits word = true → sel.admits word = true

namespace TcU32Sel.Narrows
variable {m n : Nat} {s₁ s₂ s₃ : TcU32Sel}

theorem refl (hok : s₁.Ok) : TcU32Sel.Narrows 0 s₁ s₁ := ⟨hok, Nat.le_refl _, fun _ h => h⟩

theorem trans (h₁ : TcU32Sel.Narrows m s₁ s₂) (h₂ : TcU32Sel.Narrows n s₂ s₃) :
    TcU32Sel.Narrows (m + n) s₁ s₃ :=
  ⟨h₂.ok, by have := h₁.nkeys_le; have := h₂.nkeys_le; omega, fun w h => h₁.admits w (h₂.admits w h)⟩

theorem mono (h : TcU32Sel.Narrows m s₁ s₂) (hmn : m ≤ n) : TcU32Sel.Narrows n s₁ s₂ :=
  ⟨h.ok, by have := h.nkeys_le; omega, h.admits⟩

end TcU32Sel.Narrows

section Narrowing
variable {sel : TcU32Sel} {key mask : U32} {off offmask : BitVec 32}

theorem packKey_nkeys_le (hn : sel.nkeys.toNat < 255) :
    (packKey sel key mask off offmask).2.nkeys.toNat ≤ sel.nkeys.toNat + 1 := by
  unfold packKey
  dsimp only
  split
  · exact Nat.le_succ _
  · exact Nat.le_succ _
  · split_ifs
    · exact Nat.le_succ _
    · exact (nkeys_succ hn).le

/-- Whether it succeeds or not, `pack_key` only narrows a selector. -/
theorem packKey_narrows (hok : sel.Ok) (hn : sel.nkeys.toNat < 255) :
    sel.Narrows 1 (packKey sel key mask off offmask).2 := by
  rcases @packKey_spec sel key mask off offmask hok hn with ⟨-, hw, hl⟩ | ⟨he, -⟩
  · exact ⟨hl, packKey_nkeys_le hn, fun w h => by rw [hw, Bool.and_eq_true] at h; exact h.1⟩
  · rw [he]; exact (TcU32Sel.Narrows.refl hok).mono (Nat.zero_le _)

variable (bo : ByteOrder)

theorem packKey16_narrows (hok : sel.Ok) (hn : sel.nkeys.toNat < 255) :
    sel.Narrows 1 (packKey16 bo sel key mask off offmask).2 := by
  rw [packKey16_eq]; exact packKey_narrows hok hn

theorem packIp6Loop_narrows (addr : Bytes) : ∀ (is : List Nat) (m : U32) (sel : TcU32Sel), sel.Ok →
    sel.nkeys.toNat + is.length < 256 → sel.Narrows is.length (packIp6Loop bo addr off offmask is m sel).2
  | [], _, sel, hok, _ => TcU32Sel.Narrows.refl hok
  | i :: is, m, sel, hok, hn => by
    have h₁ := @packKey_narrows sel (bo.htonl (bo.load addr (BitVec.ofNat 32 (4 * i)))) (bo.htonl m)
      (off + 4 * (BitVec.ofNat 32 i - 1)) offmask hok (by simp only [List.length_cons] at hn; omega)
    unfold packIp6Loop
    dsimp only
    split_ifs
    · exact h₁.mono (by simp)
    · have h₂ := packIp6Loop_narrows addr is (bo.htonl m) _ h₁.ok
        (by have := h₁.nkeys_le; simp only [List.length_cons] at hn; omega)
      exact (h₁.trans h₂).mono (by simp [Nat.add_comm])

theorem packAddr_narrows (family : SaFamily) (ip : SockaddrStore) (hok : sel.Ok)
    (hn : sel.nkeys.toNat + 4 < 256) : sel.Narrows 4 (packAddr bo sel family ip off) := by
  unfold packAddr
  split_ifs
  · exact (packKey_narrows hok (by omega)).mono (by omega)
  · exact packIp6Loop_narrows bo _ (List.range 4) _ sel hok hn

/-- A narrowing followed by `pack_key16`. -/
theorem TcU32Sel.Narrows.packKey16 {n : Nat} {s s' : TcU32Sel} (h : s.Narrows n s')
    (hn : s.nkeys.toNat + n < 255) : s.Narrows (n + 1) (XlioTcp.packKey16 bo s' key mask off offmask).2 :=
  h.trans (packKey16_narrows bo h.ok (by have := h.nkeys_le; omega))

/-- A narrowing followed by the address match of a filter. -/
theorem TcU32Sel.Narrows.packAddr {n : Nat} {s s' : TcU32Sel} (family : SaFamily) (ip : SockaddrStore)
    (h : s.Narrows n s') (hn : s.nkeys.toNat + n + 4 < 256) :
    s.Narrows (n + 4) (XlioTcp.packAddr bo s' family ip off) :=
  h.trans (packAddr_narrows bo family ip h.ok (by have := h.nkeys_le; omega))

end Narrowing

/-- Whatever the family of `dst_ip`, the filter `tc_add_filter_dev2tap` sends admits only packets
whose byte 9 is `l4_proto` and whose half-word at 6 is zero under `0x3fff`: the protocol and the
fragment bits of an IPv4 header. The later keys only narrow the first two, even where `pack_ip6`
or a merge fails. In an IPv6 header byte 9 lies in the source address and bytes 6 and 7 are the
next header and the hop limit, so the IPv6 filter refuses every packet with a nonzero hop limit. -/
theorem dev2tapSel_admits_ipv4_fields (bo : ByteOrder) (l4Proto : Int) (dstIp : SockaddrStore)
    (srcIp : Option SockaddrStore) (p : Bytes)
    (h : (dev2tapSel bo l4Proto dstIp srcIp).admits (bo.load p) = true) :
    p 9 = (BitVec.ofInt 32 l4Proto).setWidth 8 ∧ p 6 &&& 0x3f = 0 ∧ p 7 = 0 := by
  unfold dev2tapSel at h
  dsimp only at h
  obtain ⟨a1, n1⟩ := packKey8_fresh bo (TcU32Sel.zeroed 10) (BitVec.ofInt 32 l4Proto) 0xff 9 0
    (by simp) (by simp)
  generalize (packKey8 bo (TcU32Sel.zeroed 10) (BitVec.ofInt 32 l4Proto) 0xff 9 0).2 = T1 at a1 n1 h
  obtain ⟨a2, n2⟩ := packKey16_fresh bo T1 0 0x3fff 6 0 (by simp [a1, key8]) (by simp [n1])
  generalize (packKey16 bo T1 0 0x3fff 6 0).2 = T2 at a2 n2 h
  simp only [zeroed_nkeys] at n1
  have first : ∀ S, T2.Narrows 10 S → S.admits (bo.load p) = true →
      p 9 = (BitVec.ofInt 32 l4Proto).setWidth 8 ∧ p 6 &&& 0x3f = 0 ∧ p 7 = 0 := fun S hS hp => by
    have h2 := hS.admits _ hp
    rw [admits_appended a2, admits_appended a1, zeroed_admits, key8_admits _ _ _ _ _ p (by decide),
      key16_admits _ _ _ _ _ p (by decide)] at h2
    simp only [Bool.true_and, Bool.and_eq_true, beq_iff_eq] at h2
    obtain ⟨e9, e⟩ := h2
    rw [show BitVec.setWidth 8 (255 : U32) = 255#8 by decide, and_ff, and_ff] at e9
    refine ⟨e9, ?_⟩
    rw [be16, show (BitVec.setWidth 16 (0x3fff : U32)) = 0x3f#8 ++ 0xff#8 by decide,
      show (BitVec.setWidth 16 (0 : U32)) = 0#8 ++ 0#8 by decide, and_halves, and_halves, halves_inj,
      and_ff] at e
    exact ⟨e.1.trans (by decide), e.2.trans (by decide)⟩
  have ok2 : T2.Ok := ok_of_appended (ok_of_appended (fun _ h => by cases h) a1) a2
  cases srcIp with
  | none =>
    exact first _ ((((TcU32Sel.Narrows.refl ok2).packAddr bo _ dstIp (by omega)).packKey16 bo
      (by omega)).mono (by omega)) h
  | some srcIp =>
    exact first _ (((((TcU32Sel.Narrows.refl ok2).packAddr bo _ srcIp (by omega)).packKey16 bo
      (by omega)).packAddr bo _ dstIp (by omega)).packKey16 bo (by omega)) h

/-- An IPv6 header to `::1` carrying protocol 6 in byte 9, with hop limit 0. -/
def sampleHopZeroPacket : Bytes := fun j => if j = 9 then 6 else if j = 27 then 1 else 0

theorem dev2tapSel_admits_ipv4_fields_sample :
    (dev2tapSel .big 6 sampleInet6Addr none).admits (ByteOrder.big.load sampleHopZeroPacket) = true ∧
      sampleHopZeroPacket 9 = (BitVec.ofInt 32 6).setWidth 8 ∧ sampleHopZeroPacket 6 &&& 0x3f = 0 ∧
        sampleHopZeroPacket 7 = 0 :=
  have h : (dev2tapSel .big 6 sampleInet6Addr none).admits (ByteOrder.big.load sampleHopZeroPacket) = true := by
    decide
  ⟨h, dev2tapSel_admits_ipv4_fields .big 6 sampleInet6Addr none sampleHopZeroPacket h⟩

example : (dev2tapSel .big 6 sampleInet6Addr none).admits
    (ByteOrder.big.load fun j => if j = 7 then 64 else sampleHopZeroPacket j) = false := by
  decide

end XlioTcp
