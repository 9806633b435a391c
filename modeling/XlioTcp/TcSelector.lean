import XlioTcp.Seq

/-! The tc u32 selector the daemon builds (`src/tools/daemon/tc.c`): a conjunction of keys, each
testing a 32-bit word of the packet under a mask, to which `pack_key` adds a key or merges it
into the key already at the same offset. -/
namespace XlioTcp

/-- `struct tc_u32_key`: the packet's 32-bit word at `off`, masked by `mask`, must equal
`val`; `offmask` selects a variable offset, which the test here does not model. -/
structure TcU32Key where
  mask : U32
  val : U32
  off : BitVec 32
  offmask : BitVec 32
  deriving DecidableEq, Repr

/-- `struct tc_u32_sel` as `pack_key` uses it. It is declared in the kernel's
`linux/pkt_cls.h`, not among the sources: `nkeys` is an `unsigned char`, and `keys` the array
it counts into. -/
structure TcU32Sel where
  nkeys : U8
  keys : List TcU32Key
  deriving DecidableEq, Repr

/-- The `for` loop of `pack_key` over the selector's keys: `none` if no key has the same `off`
and `offmask`; at the first that does, `some none` when the new bits contradict it (the
`return -1`), or the keys with the new bits merged into it. -/
def packKeyMerge (key mask : U32) (off offmask : BitVec 32) :
    List TcU32Key → Option (Option (List TcU32Key))
  | [] => none
  | k :: ks =>
    if k.off = off ∧ k.offmask = offmask then
      if (key ^^^ k.val) &&& (mask &&& k.mask) ≠ 0 then some none
      else some (some ({ k with val := k.val ||| key, mask := k.mask ||| mask } :: ks))
    else (packKeyMerge key mask off offmask ks).map (Option.map (k :: ·))

/-- `pack_key(sel, key, mask, off, offmask)`: the value it returns and the selector after. -/
def packKey (sel : TcU32Sel) (key mask : U32) (off offmask : BitVec 32) : Int × TcU32Sel :=
  let key := key &&& mask
  let n := sel.nkeys.toNat
  match packKeyMerge key mask off offmask (sel.keys.take n) with
  | some none => (-1, sel)
  | some (some ks) => (0, { sel with keys := ks ++ sel.keys.drop n })
  | none =>
    if off.srem 4 ≠ 0 then (-1, sel)
    else (0, { nkeys := sel.nkeys + 1,
               keys := sel.keys.take n ++ ⟨mask, key, off, offmask⟩ :: sel.keys.drop (n + 1) })

/-! ## What a selector admits -/

/-- A key admits a packet, given as its 32-bit word at each offset, when the word at `off`
under `mask` equals `val`. -/
def TcU32Key.admits (word : BitVec 32 → U32) (k : TcU32Key) : Bool := word k.off &&& k.mask == k.val

/-- The selector's keys: the first `nkeys` entries of its array. -/
def TcU32Sel.active (sel : TcU32Sel) : List TcU32Key := sel.keys.take sel.nkeys.toNat

/-- A selector admits a packet when each of its keys does. -/
def TcU32Sel.admits (word : BitVec 32 → U32) (sel : TcU32Sel) : Bool := sel.active.all (·.admits word)

/-- Every key's value lies inside its mask (`val & ~mask = 0`). -/
def TcU32Sel.Ok (sel : TcU32Sel) : Prop := ∀ k ∈ sel.active, k.val &&& ~~~k.mask = 0

instance : DecidablePred TcU32Sel.Ok := fun sel =>
  inferInstanceAs (Decidable (∀ k ∈ sel.active, k.val &&& ~~~k.mask = 0))

/-! ## Bit lemmas -/

theorem bv_ext_iff {x y : U32} : x = y ↔ ∀ i, x.getLsbD i = y.getLsbD i :=
  ⟨fun h _ => h ▸ rfl, fun h => BitVec.eq_of_getLsbD_eq fun i => h i⟩

theorem zero_getLsbD (i : Nat) : (0 : U32).getLsbD i = false := BitVec.getLsbD_zero

/-- Two masked tests of one word agree on the bits both masks select. -/
theorem masked_agree {w m v m' k : U32} (h : w &&& m = v) (h' : w &&& m' = k) :
    (k ^^^ v) &&& (m' &&& m) = 0 := by
  rw [bv_ext_iff] at *
  intro i
  simp only [BitVec.getLsbD_and, BitVec.getLsbD_xor, zero_getLsbD, ← h i, ← h' i]
  cases w.getLsbD i <;> cases m.getLsbD i <;> cases m'.getLsbD i <;> rfl

/-- Merging a test into another of the same word: when each value lies inside its mask and the
two agree on the bits both masks select, the merged test is the conjunction of the two. -/
theorem merged_iff {w m v m' k : U32} (hv : v &&& ~~~m = 0) (hk : k &&& ~~~m' = 0)
    (hc : (k ^^^ v) &&& (m' &&& m) = 0) :
    w &&& (m ||| m') = v ||| k ↔ w &&& m = v ∧ w &&& m' = k := by
  simp only [bv_ext_iff, ← forall_and]
  refine forall_congr' fun i => ?_
  have e1 := congrArg (·.getLsbD i) hv
  have e2 := congrArg (·.getLsbD i) hk
  have e3 := congrArg (·.getLsbD i) hc
  simp only [BitVec.getLsbD_and, BitVec.getLsbD_or, BitVec.getLsbD_xor, BitVec.getLsbD_not,
    zero_getLsbD] at e1 e2 e3 ⊢
  by_cases hi : i < 32
  · simp only [hi, decide_True, Bool.true_and] at e1 e2
    revert e1 e2 e3
    cases w.getLsbD i <;> cases m.getLsbD i <;> cases m'.getLsbD i <;> cases v.getLsbD i <;>
      cases k.getLsbD i <;> decide
  · simp only [BitVec.getLsbD_ge _ _ (Nat.le_of_not_lt hi), Bool.false_and, Bool.or_self, and_self]

theorem merged_ok {v m k m' : U32} (hv : v &&& ~~~m = 0) (hk : k &&& ~~~m' = 0) :
    (v ||| k) &&& ~~~(m ||| m') = 0 := by
  rw [bv_ext_iff] at *
  intro i
  have e1 := hv i
  have e2 := hk i
  simp only [BitVec.getLsbD_and, BitVec.getLsbD_or, BitVec.getLsbD_not, zero_getLsbD] at e1 e2 ⊢
  revert e1 e2
  cases v.getLsbD i <;> cases m.getLsbD i <;> cases k.getLsbD i <;> cases m'.getLsbD i <;> simp

theorem masked_ok (key mask : U32) : (key &&& mask) &&& ~~~mask = 0 := by
  rw [bv_ext_iff]
  intro i
  simp only [BitVec.getLsbD_and, BitVec.getLsbD_not, zero_getLsbD]
  cases key.getLsbD i <;> cases mask.getLsbD i <;> simp

/-! ## The merge walk -/

section Merge
variable {key mask : U32} {off offmask : BitVec 32}

/-- A walk that finds no key at the same place met none. -/
theorem packKeyMerge_none : ∀ {ks : List TcU32Key}, packKeyMerge key mask off offmask ks = none →
    ∀ k ∈ ks, ¬(k.off = off ∧ k.offmask = offmask)
  | [], _ => by simp
  | k :: ks, h => by
    unfold packKeyMerge at h
    split at h
    · split at h <;> cases h
    · rename_i hk
      intro k' hk'
      rcases List.mem_cons.mp hk' with rfl | hk'
      · exact hk
      · exact packKeyMerge_none (Option.map_eq_none'.mp h) k' hk'

/-- A refused merge: no packet the keys admit has the new bits at `off`. -/
theorem packKeyMerge_conflict (word : BitVec 32 → U32) : ∀ {ks : List TcU32Key},
    packKeyMerge key mask off offmask ks = some none → ks.all (·.admits word) = true →
      word off &&& mask ≠ key
  | [], h => by cases h
  | k :: ks, h => by
    unfold packKeyMerge at h
    simp only [List.all_cons, Bool.and_eq_true]
    rintro ⟨hk, hks⟩ hw
    split at h
    · rename_i hsame
      split at h
      · rename_i hc
        rw [TcU32Key.admits, beq_iff_eq, hsame.1] at hk
        exact hc (masked_agree hk hw)
      · cases h
    · obtain ⟨o, ho, he⟩ := Option.map_eq_some'.mp h
      cases o with
      | none => exact packKeyMerge_conflict word ho hks hw
      | some _ => cases he

theorem packKeyMerge_length : ∀ {ks ks' : List TcU32Key},
    packKeyMerge key mask off offmask ks = some (some ks') → ks'.length = ks.length
  | [], _, h => by cases h
  | k :: ks, ks', h => by
    unfold packKeyMerge at h
    split at h
    · split at h
      · cases h
      · cases h; rfl
    · obtain ⟨o, ho, he⟩ := Option.map_eq_some'.mp h
      cases o with
      | none => cases he
      | some l => cases he; simp [packKeyMerge_length ho]

/-- A merge: the keys after admit exactly the packets the keys before admit that also have
`key` under `mask` at `off`, and every value stays inside its mask. -/
theorem packKeyMerge_merge (hk : key &&& ~~~mask = 0) : ∀ {ks ks' : List TcU32Key},
    (∀ k ∈ ks, k.val &&& ~~~k.mask = 0) → packKeyMerge key mask off offmask ks = some (some ks') →
      (∀ word, ks'.all (·.admits word) = (ks.all (·.admits word) && (word off &&& mask == key))) ∧
        ∀ k ∈ ks', k.val &&& ~~~k.mask = 0
  | [], _, _, h => by cases h
  | k :: ks, ks', hok, h => by
    have hk0 := hok k (List.mem_cons_self _ _)
    unfold packKeyMerge at h
    split at h
    · rename_i hsame
      split at h
      · cases h
      · rename_i hc
        cases h
        refine ⟨fun word => ?_, ?_⟩
        · have e : (word off &&& (k.mask ||| mask) == k.val ||| key) =
              (word off &&& k.mask == k.val && word off &&& mask == key) := by
            rw [Bool.eq_iff_iff, Bool.and_eq_true, beq_iff_eq, beq_iff_eq, beq_iff_eq]
            exact merged_iff hk0 hk (not_not.mp hc)
          simp only [List.all_cons, TcU32Key.admits]
          rw [hsame.1, e, Bool.and_assoc, Bool.and_assoc]
          exact congrArg _ (Bool.and_comm _ _)
        · intro k' hk'
          rcases List.mem_cons.mp hk' with rfl | hk'
          · exact merged_ok hk0 hk
          · exact hok k' (List.mem_cons_of_mem _ hk')
    · obtain ⟨o, ho, he⟩ := Option.map_eq_some'.mp h
      cases o with
      | none => cases he
      | some l =>
        cases he
        obtain ⟨hw, hl⟩ := packKeyMerge_merge hk (fun k' h' => hok k' (List.mem_cons_of_mem _ h')) ho
        refine ⟨fun word => by simp only [List.all_cons, hw, Bool.and_assoc], fun k' hk' => ?_⟩
        rcases List.mem_cons.mp hk' with rfl | hk'
        · exact hk0
        · exact hl k' hk'

theorem packKeyMerge_absent : ∀ {ks : List TcU32Key},
    (∀ k ∈ ks, ¬(k.off = off ∧ k.offmask = offmask)) → packKeyMerge key mask off offmask ks = none
  | [], _ => rfl
  | k :: ks, h => by
    rw [packKeyMerge, if_neg (h k (List.mem_cons_self _ _)),
      packKeyMerge_absent fun k' hk' => h k' (List.mem_cons_of_mem _ hk')]
    rfl

end Merge

/-! ## `pack_key` -/

theorem take_merged {l ks : List TcU32Key} {n : Nat} (h : ks.length = (l.take n).length) :
    (ks ++ l.drop n).take n = ks := by
  rw [List.length_take] at h
  rw [List.take_append_eq_append_take, List.take_of_length_le (by omega)]
  by_cases hn : n ≤ l.length
  · rw [show n - ks.length = 0 by omega, List.take_zero, List.append_nil]
  · rw [List.drop_eq_nil_of_le (by omega), List.take_nil, List.append_nil]

theorem take_appended (l : List TcU32Key) (x : TcU32Key) (n : Nat) :
    (l.take n ++ x :: l.drop (n + 1)).take (n + 1) = l.take n ++ [x] := by
  rw [List.take_append_eq_append_take, List.take_of_length_le (by simp), List.length_take]
  by_cases hn : n ≤ l.length
  · rw [show n + 1 - min n l.length = 1 by omega]; rfl
  · rw [List.drop_eq_nil_of_le (by omega), show n + 1 - min n l.length = (n - l.length) + 1 by omega,
      List.take_succ_cons, List.take_nil]

/-- `pack_key` on a selector of fewer than 255 keys whose values lie inside their masks. When it
returns 0, the selector admits exactly the packets it admitted before whose word at `off`
has `key` under `mask`, and every value still lies inside its mask. When it returns -1, the
selector is unchanged; if a key at the same `off` and `offmask` was there, no packet the
selector admits has `key` under `mask` at `off`. -/
theorem packKey_exact (sel : TcU32Sel) (key mask : U32) (off offmask : BitVec 32) (hok : sel.Ok)
    (hn : sel.nkeys.toNat < 255) :
    ((packKey sel key mask off offmask).1 = 0 →
      (∀ word, (packKey sel key mask off offmask).2.admits word =
        (sel.admits word && (word off &&& mask == key &&& mask))) ∧ (packKey sel key mask off offmask).2.Ok) ∧
    ((packKey sel key mask off offmask).1 = -1 → (packKey sel key mask off offmask).2 = sel ∧
      ((∃ k ∈ sel.active, k.off = off ∧ k.offmask = offmask) →
        ∀ word, sel.admits word = true → word off &&& mask ≠ key &&& mask)) := by
  unfold packKey
  dsimp only
  rcases h : packKeyMerge (key &&& mask) mask off offmask (sel.keys.take sel.nkeys.toNat) with _ | _ | ks
  · split_ifs with h4
    · exact ⟨by simp, fun _ => ⟨rfl, fun ⟨k, hk, hs⟩ => (packKeyMerge_none h k hk hs).elim⟩⟩
    · have hn1 : (sel.nkeys + 1).toNat = sel.nkeys.toNat + 1 := by
        rw [BitVec.toNat_add, show (1 : U8).toNat = 1 from rfl, Nat.mod_eq_of_lt (by omega)]
      have e : (⟨sel.nkeys + 1, sel.keys.take sel.nkeys.toNat ++
          ⟨mask, key &&& mask, off, offmask⟩ :: sel.keys.drop (sel.nkeys.toNat + 1)⟩ : TcU32Sel).active =
          sel.active ++ [⟨mask, key &&& mask, off, offmask⟩] := by
        rw [TcU32Sel.active, hn1, take_appended]; rfl
      refine ⟨fun _ => ⟨fun word => ?_, ?_⟩, by simp⟩
      · rw [TcU32Sel.admits, e, List.all_append, List.all_cons, List.all_nil, Bool.and_true]; rfl
      · rw [TcU32Sel.Ok, e]
        intro k hk
        rcases List.mem_append.mp hk with hk | hk
        · exact hok k hk
        · rw [List.mem_singleton.mp hk]; exact masked_ok key mask
  · exact ⟨by simp, fun _ => ⟨rfl, fun _ word hw => packKeyMerge_conflict word h hw⟩⟩
  · obtain ⟨hw, hl⟩ := packKeyMerge_merge (masked_ok key mask) hok h
    have e : ({ sel with keys := ks ++ sel.keys.drop sel.nkeys.toNat } : TcU32Sel).active = ks :=
      take_merged (packKeyMerge_length h)
    exact ⟨fun _ => ⟨fun word => by rw [TcU32Sel.admits, e, hw]; rfl, by rw [TcU32Sel.Ok, e]; exact hl⟩,
      by simp⟩

/-- A selector on the IPv4 protocol byte (the second byte of the word at offset 8) being TCP. -/
def sampleProtoSel : TcU32Sel := ⟨1, [⟨0x00ff0000, 0x00060000, 8, 0⟩]⟩

theorem packKey_exact_sample :
    sampleProtoSel.Ok ∧ sampleProtoSel.nkeys.toNat < 255 ∧ (packKey sampleProtoSel 0x1234 0xffff 8 0).1 = 0 ∧
      ∀ word, (packKey sampleProtoSel 0x1234 0xffff 8 0).2.admits word =
        (sampleProtoSel.admits word && (word 8 &&& 0xffff == 0x1234 &&& 0xffff)) := by
  have h₁ : sampleProtoSel.Ok := by decide
  have h₂ : (packKey sampleProtoSel 0x1234 0xffff 8 0).1 = 0 := by decide
  exact ⟨h₁, by decide, h₂, ((packKey_exact sampleProtoSel 0x1234 0xffff 8 0 h₁ (by decide)).1 h₂).1⟩

/-- `nkeys` is an `unsigned char`: on a selector of 255 keys, a key at a fresh, aligned place is
stored and `pack_key` returns 0, but `nkeys` wraps to 0 and the selector admits every packet. -/
theorem packKey_wraps (sel : TcU32Sel) (key mask : U32) (off offmask : BitVec 32) (hn : sel.nkeys = 255)
    (hfresh : ∀ k ∈ sel.active, ¬(k.off = off ∧ k.offmask = offmask)) (hal : off.srem 4 = 0) :
    (packKey sel key mask off offmask).1 = 0 ∧ (packKey sel key mask off offmask).2.nkeys = 0 ∧
      ∀ word, (packKey sel key mask off offmask).2.admits word = true := by
  have hm : packKeyMerge (key &&& mask) mask off offmask (sel.keys.take sel.nkeys.toNat) = none :=
    packKeyMerge_absent hfresh
  unfold packKey
  dsimp only
  rw [hm, if_neg (not_not.mpr hal), hn]
  exact ⟨rfl, rfl, fun _ => rfl⟩

/-- A selector whose 255 keys test one bit of the words at offsets 0, 4, ..., 1016. -/
def sampleFullSel : TcU32Sel := ⟨255, (List.range 255).map fun i => ⟨1, 1, BitVec.ofNat 32 (4 * i), 0⟩⟩

/-- A 256th key is stored and `pack_key` returns 0, but the selector then admits every packet,
among them one it refused before. -/
theorem packKey_256th_key_empties_selector :
    sampleFullSel.Ok ∧ (packKey sampleFullSel 1 1 1020 0).1 = 0 ∧ (packKey sampleFullSel 1 1 1020 0).2.nkeys = 0 ∧
      sampleFullSel.admits (fun _ => 0) = false ∧ (packKey sampleFullSel 1 1 1020 0).2.admits (fun _ => 0) = true := by
  have hact : sampleFullSel.active = (List.range 255).map fun i => ⟨1, 1, BitVec.ofNat 32 (4 * i), 0⟩ :=
    List.take_of_length_le (by simp [sampleFullSel])
  have hfresh : ∀ k ∈ sampleFullSel.active, ¬(k.off = 1020 ∧ k.offmask = 0) := by
    rw [hact]
    simp only [List.mem_map, List.mem_range]
    rintro k ⟨i, hi, rfl⟩ ⟨ho, -⟩
    bv_omega
  obtain ⟨h0, hn, ha⟩ := packKey_wraps sampleFullSel 1 1 1020 0 rfl hfresh (by decide)
  refine ⟨?_, h0, hn, ?_, ha _⟩
  · rw [TcU32Sel.Ok, hact]
    simp only [List.mem_map, List.mem_range]
    rintro k ⟨i, -, rfl⟩
    exact (by decide : (1 : U32) &&& ~~~1 = 0)
  · rw [TcU32Sel.admits, hact, Bool.eq_false_iff]
    intro h
    rw [List.all_eq_true] at h
    exact absurd (h _ (List.mem_map_of_mem _ (List.mem_range.mpr (by decide : 0 < 255)))) (by decide)

end XlioTcp
