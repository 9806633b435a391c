import XlioTcp.Handshake

/-! The header parser and the option walks of `tcp_in.c`, as readers of the packet's memory. -/
namespace XlioTcp

/-! ## The header parser -/

theorem pbufRealloc_of_le (p : List Pbuf) (n : U32) (h : chainTotLen p ≤ n) : pbufRealloc p n = some p := by
  simp only [pbufRealloc, ge_iff_le, h, if_true]

theorem pbufHeaderHide_of_le (q : Pbuf) (n : U32) (h : n ≤ q.len) :
    pbufHeaderHide q n = { q with payload := q.payload.drop n.toNat, len := q.len - n, totLen := q.totLen - n } :=
  if_pos h

/-- A first fragment that holds the IP header and 60 more bytes, with a declared length at or
beyond the bytes present, is handed on whatever its IHL and whatever its data offset: the TCP
header is read right after the IP header, and the payload starts `4 * offset` bytes after the
TCP header's start, inside its fixed 20 bytes when the offset is below 5. -/
theorem tcpInParse_accepts (q : Pbuf) (qs : List Pbuf)
    (htot : q.totLen ≤ (fillParsedIpHdr q.payload).totalLength.setWidth 32) (hlen : q.len ≤ q.totLen)
    (hhl : (fillParsedIpHdr q.payload).headerLength.toNat + 60 ≤ q.len.toNat) :
    ∃ d, tcpInParse (q :: qs) = some (some d) ∧
      d.tcphdr = decodeTcpHdr (q.payload.drop (fillParsedIpHdr q.payload).headerLength.toNat) ∧
      d.inseg.p.head?.map (·.payload) = some (q.payload.drop
        ((fillParsedIpHdr q.payload).headerLength.toNat + d.tcphdr.hdrlen.toNat * 4)) := by
  generalize hip : fillParsedIpHdr q.payload = ip at htot hhl ⊢
  have hl : (ip.headerLength.setWidth 32).toNat = ip.headerLength.toNat := by
    have := ip.headerLength.isLt
    rw [BitVec.toNat_setWidth, Nat.mod_eq_of_lt (by omega)]
  have hle : ip.headerLength.setWidth 32 ≤ q.len := by bv_omega
  simp only [tcpInParse, List.head?_cons, Option.bind_eq_bind, Option.some_bind, hip,
    pbufRealloc_of_le (q :: qs) _ htot, pbufHeaderHide_of_le q _ hle]
  generalize hth : decodeTcpHdr _ = th
  have hn : BitVec.ofNat 32 (th.hdrlen.toNat * 4) ≤ q.len - ip.headerLength.setWidth 32 := by
    have := th.hdrlen.isLt
    simp only [BitVec.le_def, BitVec.toNat_ofNat, BitVec.toNat_sub, hl]
    omega
  have h₁ : ¬(ip.headerLength.setWidth 32 > q.len || q.totLen - ip.headerLength.setWidth 32 < 20) = true := by
    simp only [Bool.or_eq_true, decide_eq_true_eq, not_or, not_lt]
    constructor <;> bv_omega
  have h₂ : ¬BitVec.ofNat 32 (th.hdrlen.toNat * 4) > q.len - ip.headerLength.setWidth 32 := BitVec.not_lt.mpr hn
  rw [chainTotLen_cons, if_neg h₁, if_neg h₂]
  refine ⟨_, rfl, by rw [← hth, hl], ?_⟩
  simp only [List.head?_cons, Option.map_some', pbufHeaderHide, hn, if_true, List.drop_drop, BitVec.toNat_ofNat, hl]
  have := th.hdrlen.isLt
  rw [Nat.mod_eq_of_lt (by omega)]

/-- A 40-byte IPv4 datagram (IHL 5, total length 40) whose TCP header, from port 80 to port
4000 with sequence number 1000, acknowledging 500 with the ACK flag, has data offset 0. -/
def sampleOffsetZeroBuf : Pbuf :=
  ⟨[0x45, 0, 0, 40, 0, 0, 0, 0, 64, 6, 0, 0, 10, 0, 0, 1, 10, 0, 0, 2,
    0, 80, 0x0F, 0xA0, 0, 0, 0x03, 0xE8, 0, 0, 0x01, 0xF4, 0x00, 0x10, 0x03, 0xE8, 0, 0, 0, 0], 40, 40, false⟩

/-- The segment of data offset 0 is handed on with its own 20-byte header as payload, and,
with no PCB for it, answered with a RST that acknowledges those 20 bytes. -/
theorem parser_hands_on_data_offset_zero :
    (tcpInParse [sampleOffsetZeroBuf]).map (Option.map fun d => (d.tcphdr.hdrlen, d.inseg.len)) =
        some (some (0, 20)) ∧
      (l3LevelTcpInput {} {} [sampleOffsetZeroBuf] none).map (·.ev) = some [.rst 500 1020 4000 80] := by
  decide

/-! ## What the option walks read -/

/-- The offsets of the options area that one step of `tcp_parseopt`'s walk at offset `c` reads:
the kind byte; the length byte for every kind but EOL and NOP; and the value bytes of an MSS,
window-scale or timestamp option it applies. -/
def parseoptStepReads (cfg : Config) (d : InData) (maxC c : Nat) (pcb : Pcb) : List Nat :=
  let opts := d.tcphdr.opts
  match (optByte opts c).toNat with
  | 0 => [c]
  | 1 => [c]
  | 2 =>
    if (optByte opts (c+1)).toNat ≠ 4 ∨ c + 4 > maxC then [c, c+1]
    else if d.flags.syn then [c, c+1, c+2, c+3] else [c, c+1]
  | 3 =>
    if (optByte opts (c+1)).toNat ≠ 3 ∨ c + 3 > maxC then [c, c+1]
    else if cfg.enableWndScale && d.flags.syn && !pcb.flags.wndScale then [c, c+1, c+2] else [c, c+1]
  | 8 =>
    if (optByte opts (c+1)).toNat ≠ 10 ∨ c + 10 > maxC then [c, c+1] else [c, c+1, c+2, c+3, c+4, c+5]
  | _ => [c, c+1]

/-- The offsets the walk of `tcp_parseopt` reads. -/
def parseoptWalkReads (cfg : Config) (d : InData) (maxC : Nat) : Nat → Nat → Pcb → List Nat
  | 0, _, _ => []
  | fuel + 1, c, pcb =>
    if c < maxC then
      parseoptStepReads cfg d maxC c pcb ++
        match parseoptStep cfg d maxC c pcb with
        | none => []
        | some (pcb', c') => parseoptWalkReads cfg d maxC fuel c' pcb'
    else []

/-- The offsets of the options area `tcp_parseopt(pcb, in_data)` reads. -/
def tcpParseoptReads (cfg : Config) (d : InData) (pcb : Pcb) : List Nat :=
  if d.tcphdr.hdrlen.toNat > 5 then
    let maxC := (d.tcphdr.hdrlen.toNat - 5) * 4
    parseoptWalkReads cfg d maxC maxC 0 pcb
  else []

/-- The segment with its options area replaced by `o`. -/
def InData.withOpts (d : InData) (o : List UInt8) : InData := { d with tcphdr := { d.tcphdr with opts := o } }

@[simp] theorem InData.withOpts_hdrlen (d : InData) (o : List UInt8) :
    (d.withOpts o).tcphdr.hdrlen = d.tcphdr.hdrlen := rfl

section Reads
variable {cfg : Config} {d : InData} {maxC c : Nat} {pcb : Pcb}

/-- A step at an offset inside the area reads inside it, except the length byte of an option
whose kind is the area's last byte. -/
theorem parseoptStepReads_le (h : c < maxC) : ∀ i ∈ parseoptStepReads cfg d maxC c pcb, i ≤ maxC := by
  unfold parseoptStepReads
  dsimp only
  split <;> (try split_ifs) <;>
    simp only [List.forall_mem_cons, List.not_mem_nil, false_implies, implies_true, and_true, not_or, gt_iff_lt, not_lt] at * <;> omega

theorem parseoptWalkReads_le (maxC : Nat) :
    ∀ fuel c pcb, ∀ i ∈ parseoptWalkReads cfg d maxC fuel c pcb, i ≤ maxC
  | 0, _, _ => by simp [parseoptWalkReads]
  | fuel + 1, c, pcb => by
    unfold parseoptWalkReads
    split_ifs with h
    · intro i hi
      rcases List.mem_append.mp hi with hi | hi
      · exact parseoptStepReads_le h i hi
      · split at hi
        · simp at hi
        · exact parseoptWalkReads_le maxC fuel _ _ i hi
    · simp

/-- `tcp_parseopt` reads the options area and at most the one byte after it. -/
theorem parseoptReads_le (pcb : Pcb) :
    ∀ i ∈ tcpParseoptReads cfg d pcb, i ≤ (d.tcphdr.hdrlen.toNat - 5) * 4 := by
  unfold tcpParseoptReads
  split_ifs
  · exact parseoptWalkReads_le _ _ _ _
  · simp

/-- A step gives the same result, and reads the same offsets, on any options area that agrees
with the segment's on the offsets the step reads. -/
theorem parseoptStep_congr {o : List UInt8}
    (h : ∀ i ∈ parseoptStepReads cfg d maxC c pcb, optByte o i = optByte d.tcphdr.opts i) :
    parseoptStep cfg (d.withOpts o) maxC c pcb = parseoptStep cfg d maxC c pcb ∧
      parseoptStepReads cfg (d.withOpts o) maxC c pcb = parseoptStepReads cfg d maxC c pcb := by
  dsimp only [parseoptStep, parseoptStepReads, InData.withOpts] at h ⊢
  rw [h c (by split <;> (try split_ifs) <;> simp)]
  generalize (optByte d.tcphdr.opts c).toNat = n at h ⊢
  match n with
  | 0 | 1 => exact ⟨rfl, rfl⟩
  | 2 | 3 | 8 | 4 | 5 | 6 | 7 | _ + 9 =>
    try dsimp only at h ⊢
    rw [h (c+1) (by (try split_ifs) <;> simp)]
    (try split_ifs at h) <;>
      simp only [List.forall_mem_cons, List.not_mem_nil, false_implies, implies_true, and_true] at h <;>
      simp only [*, read32Be, if_true, if_false, Bool.false_eq_true, not_false_eq_true, and_self, and_true]

theorem parseoptWalk_congr {o : List UInt8} (maxC : Nat) : ∀ fuel c pcb,
    (∀ i ∈ parseoptWalkReads cfg d maxC fuel c pcb, optByte o i = optByte d.tcphdr.opts i) →
      parseoptWalk cfg (d.withOpts o) maxC fuel c pcb = parseoptWalk cfg d maxC fuel c pcb
  | 0, _, _, _ => rfl
  | fuel + 1, c, pcb, h => by
    unfold parseoptWalkReads at h
    unfold parseoptWalk
    split_ifs at h ⊢ with hc
    · rw [(parseoptStep_congr fun i hi => h i (List.mem_append_left _ hi)).1]
      rcases hq : parseoptStep cfg d maxC c pcb with _ | ⟨pcb', c'⟩
      · rfl
      · rw [hq] at h
        exact parseoptWalk_congr maxC fuel c' pcb' fun i hi => h i (List.mem_append_right _ hi)
    · rfl

/-- `tcp_parseopt` depends on the options area only through the offsets it reads. -/
theorem tcpParseopt_congr {o : List UInt8}
    (h : ∀ i ∈ tcpParseoptReads cfg d pcb, optByte o i = optByte d.tcphdr.opts i) :
    tcpParseopt cfg (d.withOpts o) pcb = tcpParseopt cfg d pcb := by
  unfold tcpParseoptReads at h
  rw [tcpParseopt, tcpParseopt, InData.withOpts_hdrlen]
  split_ifs at h ⊢
  · exact parseoptWalk_congr _ _ _ _ h
  · rfl

end Reads

/-- A segment of data offset 6 whose 4-byte options area ends in an MSS kind byte. -/
def sampleShortOptsIn : InData :=
  { sampleAckIn with tcphdr := { sampleAckIn.tcphdr with hdrlen := 6, opts := [1, 1, 1, 2] } }

/-! ## The timestamp scan of TIME_WAIT -/

/-- The options length `tcp_timewait_input` gives the timestamp scan, `(offset - 5) << 2` in a
`u16_t`: the options area's size for an offset of at least 5, and a wrapped length of more than
65500 below 5. -/
theorem timewaitOptsLen_toNat (hl : BitVec 4) :
    ((hl.setWidth 16 - 5) <<< 2).toNat =
      if 5 ≤ hl.toNat then (hl.toNat - 5) * 4 else 2^16 - (5 - hl.toNat) * 4 := by
  have := hl.isLt
  have h5 : (5 : U16).toNat = 5 := rfl
  simp only [BitVec.toNat_shiftLeft, BitVec.toNat_sub, BitVec.toNat_setWidth, h5, Nat.shiftLeft_eq]
  split <;> omega

private theorem optLen_toNat {l : UInt8} (h : ¬l = 0) : 0 < l.toNat ∧ l.toNat < 256 :=
  ⟨Nat.pos_of_ne_zero fun h0 => h (UInt8.toNat.inj (h0.trans UInt8.toNat_zero.symm)), l.toNat_lt_size⟩

section TsScan
variable {opts : List UInt8} {optsLen : U16}

/-- With an options length of at most 40 the `u16_t` offset cannot wrap and every step moves it
forward, so the scan returns within `optsLen - c + 1` steps. -/
theorem parseoptTsWalk_isSome (hm : optsLen.toNat ≤ 40) :
    ∀ fuel (w : U16), optsLen.toNat ≤ w.toNat + fuel → (parseoptTsWalk opts optsLen (fuel + 1) w).isSome
  | 0, w, h => by
    rw [parseoptTsWalk, if_neg (by rw [BitVec.lt_def]; omega)]; rfl
  | fuel + 1, w, h => by
    rw [parseoptTsWalk]
    by_cases hw : w < optsLen
    · rw [if_pos hw]
      rw [BitVec.lt_def] at hw
      split
      · split_ifs <;> rfl
      · rfl
      · exact parseoptTsWalk_isSome hm fuel _ (by rw [BitVec.toNat_add, show (1 : U16).toNat = 1 from rfl]; omega)
      · dsimp only
        split_ifs with hl
        · rfl
        · have := optLen_toNat hl
          exact parseoptTsWalk_isSome hm fuel _ (by rw [BitVec.toNat_add, BitVec.toNat_ofNat]; omega)
    · rw [if_neg hw]; rfl

/-- For a data offset of at least 5 the timestamp scan of `tcp_timewait_input` returns. -/
theorem tcpParseoptTs_isSome (hl : BitVec 4) (h5 : 5 ≤ hl.toNat) :
    (tcpParseoptTs opts ((hl.setWidth 16 - 5) <<< 2)).isSome := by
  have e := timewaitOptsLen_toNat hl
  rw [if_pos h5] at e
  exact parseoptTsWalk_isSome (by have := hl.isLt; omega) _ 0 (by rw [e]; show _ ≤ 0 + 2^16; omega)

end TsScan

/-- A TIME_WAIT connection that saw timestamps, the last one 5; its `rcv_nxt` is 1000. -/
def sampleTsTwPcb : Pcb := { sampleTwPcb with flags := { timestamp := true }, tsRecent := 5 }

/-- A SYN from port 80 to port 4000 at sequence number 500 with data offset 4, in a 50-byte IPv4
datagram: the ten bytes after its fixed header spell a timestamp option of value 7. -/
def sampleOffsetFourSynBuf : Pbuf :=
  ⟨[0x45, 0, 0, 50, 0, 0, 0, 0, 64, 6, 0, 0, 10, 0, 0, 1, 10, 0, 0, 2,
    0, 80, 0x0F, 0xA0, 0, 0, 0x01, 0xF4, 0, 0, 0, 0, 0x40, 0x02, 0x03, 0xE8, 0, 0, 0, 0,
    8, 10, 0, 0, 0, 7, 0, 0, 0, 0], 50, 50, false⟩

/-- `tcp_parseopt` on a data offset of 6 reads offset 4, the byte after the options area; a SYN
of data offset 4 reaching TIME_WAIT has its payload scanned as options, and the timestamp found
there recycles the connection, where the SYN's sequence number alone would not. -/
theorem option_walks_read_past_area :
    tcpParseoptReads {} sampleShortOptsIn sampleEstPcb = [0, 1, 2, 3, 4] ∧
      ((l3LevelTcpInput {} {} [sampleOffsetFourSynBuf] (some sampleTsTwPcb)).bind (·.pcb)).map (·.state) =
        some .synRcvd := by
  decide

/-! ## The scan against `tcp_parseopt` -/

section Agreement
variable {cfg : Config} {d : InData} {maxC c c' : Nat} {pcb pcb' : Pcb} {optsLen : U16}

/-- What a step of `tcp_parseopt`'s walk does to the offset and the timestamp flag: only a
timestamp option of the right length may set the flag; a NOP moves the offset by one, and every
other option it passes by its length byte, which is not zero. -/
theorem parseoptStep_spec (h : parseoptStep cfg d maxC c pcb = some (pcb', c')) :
    (optByte d.tcphdr.opts c).toNat = 8 ∧ (optByte d.tcphdr.opts (c + 1)).toNat = 10 ∧ c + 10 ≤ maxC ∨
      pcb'.flags.timestamp = pcb.flags.timestamp ∧
        ((optByte d.tcphdr.opts c).toNat = 1 ∧ c' = c + 1 ∨
          (optByte d.tcphdr.opts c).toNat ≠ 8 ∧ (optByte d.tcphdr.opts c).toNat ≠ 0 ∧
            (optByte d.tcphdr.opts c).toNat ≠ 1 ∧ (optByte d.tcphdr.opts (c + 1)).toNat ≠ 0 ∧
            c' = c + (optByte d.tcphdr.opts (c + 1)).toNat) := by
  unfold parseoptStep at h
  dsimp only at h
  split at h
  next => cases h
  next hk => cases h; exact .inr ⟨rfl, .inl ⟨hk, rfl⟩⟩
  next hk =>
    split at h
    · cases h
    · split at h <;> cases h <;> exact .inr ⟨rfl, .inr ⟨by omega, by omega, by omega, by omega, by omega⟩⟩
  next hk =>
    split at h
    · cases h
    · split at h <;> cases h <;> exact .inr ⟨rfl, .inr ⟨by omega, by omega, by omega, by omega, by omega⟩⟩
  next hk =>
    split at h
    · cases h
    · exact .inl ⟨hk, by omega, by omega⟩
  next =>
    split at h
    · cases h
    · rename_i _ h0 h1 _ _ h8 hl
      cases h
      exact .inr ⟨rfl, .inr ⟨h8, h0, h1, hl, rfl⟩⟩

/-- One step of `tcp_parseopt`'s walk inside the area either stands on a timestamp option the scan
returns from the same offset, or moves the scan to the step's next offset without touching the
timestamp flag: an MSS or window-scale option of the right length is, for the scan, an option it
skips by its length byte. -/
theorem parseoptStep_tsWalk (fuel : Nat) {w : U16} (hc : c < maxC) (hm : maxC ≤ 40)
    (hlen : optsLen.toNat = maxC) (hw : w.toNat = c) (h : parseoptStep cfg d maxC c pcb = some (pcb', c')) :
    (∃ v, parseoptTsWalk d.tcphdr.opts optsLen (fuel + 1) w = some (some v)) ∨
      pcb'.flags.timestamp = pcb.flags.timestamp ∧ ∃ w' : U16, w'.toNat = c' ∧
        parseoptTsWalk d.tcphdr.opts optsLen (fuel + 1) w = parseoptTsWalk d.tcphdr.opts optsLen fuel w' := by
  rw [parseoptTsWalk, if_pos (by rw [BitVec.lt_def]; omega), hw]
  rcases parseoptStep_spec h with ⟨h8, h10, hle⟩ | ⟨hf, ⟨h1, rfl⟩ | ⟨h8, h0, h1, hl, rfl⟩⟩
  · rw [h8]
    exact .inl ⟨_, by rw [hlen]; exact if_neg (by omega)⟩
  · rw [h1]
    exact .inr ⟨hf, w + 1, by rw [BitVec.toNat_add, show (1 : U16).toNat = 1 from rfl]; omega, rfl⟩
  · have : (optByte d.tcphdr.opts (c + 1)).toNat < 256 := (optByte d.tcphdr.opts (c + 1)).toNat_lt_size
    split
    next hk => exact absurd hk h8
    next hk => exact absurd hk h0
    next hk => exact absurd hk h1
    next =>
      refine .inr ⟨hf, _, ?_, if_neg fun h0 => hl (by rw [h0]; rfl)⟩
      rw [BitVec.toNat_add, BitVec.toNat_ofNat]
      omega

/-- Along a whole walk: from offsets that agree, a `tcp_parseopt` walk that sets the timestamp
flag, clear at its start, meets a timestamp option the scan returns. -/
theorem parseoptWalk_tsWalk (hm : maxC ≤ 40) (hlen : optsLen.toNat = maxC) :
    ∀ fuel c pcb (f : Nat) (w : U16), fuel ≤ f → w.toNat = c → pcb.flags.timestamp = false →
      (parseoptWalk cfg d maxC fuel c pcb).flags.timestamp = true →
      ∃ v, parseoptTsWalk d.tcphdr.opts optsLen f w = some (some v)
  | 0, c, pcb, _, _, _, _, h0, h => by rw [parseoptWalk, h0] at h; cases h
  | fuel + 1, c, pcb, f, w, hf, hw, h0, h => by
    obtain ⟨f, rfl⟩ : ∃ f', f = f' + 1 := ⟨f - 1, by omega⟩
    unfold parseoptWalk at h
    split_ifs at h with hc
    · rcases hq : parseoptStep cfg d maxC c pcb with _ | ⟨pcb', c'⟩
      · rw [hq, h0] at h; cases h
      · rw [hq] at h
        rcases parseoptStep_tsWalk f hc hm hlen hw hq with hv | ⟨hf', w', hw', e⟩
        · exact hv
        · rw [e]; exact parseoptWalk_tsWalk hm hlen fuel c' pcb' f w' (by omega) hw' (hf'.trans h0) h
    · rw [h0] at h; cases h

end Agreement

/-- When `tcp_parseopt` sets the timestamp flag of a PCB that did not have it, the timestamp scan
of `tcp_timewait_input` over the same header finds a timestamp too. -/
theorem tcpParseopt_timestamp_scan (cfg : Config) (d : InData) (pcb : Pcb)
    (hclr : pcb.flags.timestamp = false) (hset : (tcpParseopt cfg d pcb).flags.timestamp = true) :
    ∃ v, tcpParseoptTs d.tcphdr.opts ((d.tcphdr.hdrlen.setWidth 16 - 5) <<< 2) = some (some v) := by
  unfold tcpParseopt at hset
  split_ifs at hset with h5
  · have e := timewaitOptsLen_toNat d.tcphdr.hdrlen
    rw [if_pos (by omega)] at e
    have := d.tcphdr.hdrlen.isLt
    exact parseoptWalk_tsWalk (by omega) e _ 0 pcb _ 0 (by omega) rfl hclr hset
  · rw [hclr] at hset; cases hset

/-- A PCB with timestamps enabled that has not seen one. -/
def sampleTsOptPcb : Pcb := { sampleEstPcb with enableTsOpt := true }

/-- A SYN of data offset 10 with two timestamp options, of values 1 and 2. -/
def sampleTwoTsSyn : InData :=
  { sampleSynIn with tcphdr := { sampleSynIn.tcphdr with
      hdrlen := 10, opts := [8, 10, 0, 0, 0, 1, 0, 0, 0, 0, 8, 10, 0, 0, 0, 2, 0, 0, 0, 0] } }

theorem tcpParseopt_timestamp_scan_sample :
    sampleTsOptPcb.flags.timestamp = false ∧ (tcpParseopt {} sampleTwoTsSyn sampleTsOptPcb).flags.timestamp = true ∧
      ∃ v, tcpParseoptTs sampleTwoTsSyn.tcphdr.opts ((sampleTwoTsSyn.tcphdr.hdrlen.setWidth 16 - 5) <<< 2) =
        some (some v) := by
  have h : (tcpParseopt {} sampleTwoTsSyn sampleTsOptPcb).flags.timestamp = true := by decide
  exact ⟨rfl, h, tcpParseopt_timestamp_scan {} _ _ rfl h⟩

/-- A SYN of data offset 9 whose MSS option has the length byte 3, followed by a timestamp option
of value 9. -/
def sampleBadMssTsSyn : InData :=
  { sampleSynIn with tcphdr := { sampleSynIn.tcphdr with
      hdrlen := 9, opts := [2, 3, 0, 8, 10, 0, 0, 0, 9, 0, 0, 0, 0, 0, 0, 0] } }

/-- The scan skips an MSS option of a wrong length that ends `tcp_parseopt`'s walk, and finds the
timestamp behind it; of two timestamp options the scan returns the first value and
`tcp_parseopt` keeps the last. -/
theorem timestamp_scan_disagrees_with_parseopt :
    tcpParseoptTs sampleBadMssTsSyn.tcphdr.opts ((sampleBadMssTsSyn.tcphdr.hdrlen.setWidth 16 - 5) <<< 2) =
        some (some 9) ∧
      (tcpParseopt {} sampleBadMssTsSyn sampleTsOptPcb).flags.timestamp = false ∧
      tcpParseoptTs sampleTwoTsSyn.tcphdr.opts ((sampleTwoTsSyn.tcphdr.hdrlen.setWidth 16 - 5) <<< 2) =
        some (some 1) ∧
      (tcpParseopt {} sampleTwoTsSyn sampleTsOptPcb).tsRecent = 2 := by
  decide

end XlioTcp
