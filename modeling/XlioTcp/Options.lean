import XlioTcp.Pcb

/-! The TCP option parsers: `tcp_parseopt`, which applies MSS, window scale and timestamp
options to a PCB, and `tcp_parseopt_ts`, the timestamp scan of the TIME_WAIT handler. -/
namespace XlioTcp

/-- `opts[i]`: a byte of the header's memory from the options area on. -/
def optByte (opts : List UInt8) (i : Nat) : UInt8 := opts.getD i 0

def read32Be (opts : List UInt8) (i : Nat) : U32 :=
  BitVec.ofNat 32 ((optByte opts i).toNat * 2^24 + (optByte opts (i+1)).toNat * 2^16 +
    (optByte opts (i+2)).toNat * 2^8 + (optByte opts (i+3)).toNat)

/-- `UPDATE_PCB_BY_MSS(pcb, mss)` of `tcp_impl.h`, on the one field the input path reads. -/
def Pcb.updateByMss (pcb : Pcb) (mss : U16) : Pcb := { pcb with mss := mss }

/-- One recognised option at offset `c` of `tcp_parseopt`'s walk: the PCB after it, and the
offset of the next option; `none` ends the walk (end of list, or a bad length). -/
def parseoptStep (cfg : Config) (d : InData) (maxC c : Nat) (pcb : Pcb) : Option (Pcb × Nat) :=
  let opts := d.tcphdr.opts
  match (optByte opts c).toNat with
  | 0 => none
  | 1 => some (pcb, c + 1)
  | 2 =>
    if (optByte opts (c+1)).toNat ≠ 4 ∨ c + 4 > maxC then none
    else if d.flags.syn then
      let mss : U16 := BitVec.ofNat 16 ((optByte opts (c+2)).toNat * 256 + (optByte opts (c+3)).toNat)
      some (pcb.updateByMss (if mss > pcb.advtsdMss || mss == 0 then pcb.advtsdMss else mss), c + 4)
    else some (pcb, c + 4)
  | 3 =>
    if (optByte opts (c+1)).toNat ≠ 3 ∨ c + 3 > maxC then none
    else if cfg.enableWndScale && d.flags.syn && !pcb.flags.wndScale then
      let s := (optByte opts (c+2)).toNat
      some ({ pcb with
        sndScale := BitVec.ofNat 8 (if s > 14 then 14 else s), rcvScale := cfg.rcvWndScale,
        flags := { pcb.flags with wndScale := true } }, c + 3)
    else some (pcb, c + 3)
  | 8 =>
    if (optByte opts (c+1)).toNat ≠ 10 ∨ c + 10 > maxC then none
    else
      let tsval := read32Be opts (c+2)
      if d.flags.syn then
        if pcb.enableTsOpt then
          some ({ pcb with tsRecent := tsval, flags := { pcb.flags with timestamp := true } }, c + 10)
        else some (pcb, c + 10)
      else if tcpSeqBetween pcb.tsLastacksent d.seqno (d.seqno + d.tcplen.setWidth 32) then
        some ({ pcb with tsRecent := tsval }, c + 10)
      else some (pcb, c + 10)
  | _ =>
    let l := (optByte opts (c+1)).toNat
    if l = 0 then none else some (pcb, c + l)

/-- The `for (c = 0; c < max_c;)` walk. Each step moves `c` forward, so `max_c` steps of
fuel always suffice (`c` stays below 40, so the `u16_t` never wraps). -/
def parseoptWalk (cfg : Config) (d : InData) (maxC : Nat) : Nat → Nat → Pcb → Pcb
  | 0, _, pcb => pcb
  | fuel + 1, c, pcb =>
    if c < maxC then
      match parseoptStep cfg d maxC c pcb with
      | none => pcb
      | some (pcb', c') => parseoptWalk cfg d maxC fuel c' pcb'
    else pcb

def tcpParseopt (cfg : Config) (d : InData) (pcb : Pcb) : Pcb :=
  if d.tcphdr.hdrlen.toNat > 5 then
    let maxC := (d.tcphdr.hdrlen.toNat - 5) * 4
    parseoptWalk cfg d maxC maxC 0 pcb
  else pcb

/-- The walk of `tcp_parseopt_ts` over a `u16_t` offset. The walk depends on the offset
alone, so one that has not ended after `2^16 + 1` steps repeats an offset and never ends:
`none` then stands for a loop that does not terminate. Otherwise the timestamp, if found. -/
def parseoptTsWalk (opts : List UInt8) (optsLen : U16) : Nat → U16 → Option (Option U32)
  | 0, _ => none
  | fuel + 1, c =>
    if c < optsLen then
      match (optByte opts c.toNat).toNat with
      | 8 =>
        if (optByte opts (c.toNat + 1)).toNat ≠ 10 ∨ c.toNat + 10 > optsLen.toNat then some none
        else some (some (read32Be opts (c.toNat + 2)))
      | 0 => some none
      | 1 => parseoptTsWalk opts optsLen fuel (c + 1)
      | _ =>
        let l := optByte opts (c.toNat + 1)
        if l = 0 then some none else parseoptTsWalk opts optsLen fuel (c + BitVec.ofNat 16 l.toNat)
    else some none

/-- `tcp_parseopt_ts(opts, opts_len, &tsval)`: `some (some v)` when it returns true with
`tsval = v`, `some none` when it returns false, `none` when it does not return. -/
def tcpParseoptTs (opts : List UInt8) (optsLen : U16) : Option (Option U32) :=
  parseoptTsWalk opts optsLen (2^16 + 1) 0

end XlioTcp
