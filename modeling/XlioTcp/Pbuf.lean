import XlioTcp.Seq

/-! Buffers (`struct pbuf`) as the TCP input code uses them: a chain of fragments, each with
its own `len` and the `tot_len` of the chain from it on. `pbuf.c` is not among the sources;
its four operations used here are modelled from the spec (trim a view, right-trim,
concatenate, count). -/
namespace XlioTcp

/-- One fragment. `payload` holds the bytes from the payload pointer to the end of the
fragment's memory; the first `len` of them are its data. -/
structure Pbuf where
  payload : List UInt8
  len : U32
  totLen : U32
  push : Bool := false
  deriving DecidableEq, Repr

/-- The data bytes of one fragment. -/
def Pbuf.data (q : Pbuf) : List UInt8 := q.payload.take q.len.toNat

/-- The data of a chain, fragment after fragment. -/
def chainData : List Pbuf → List UInt8
  | [] => []
  | q :: qs => q.data ++ chainData qs

/-- `p->tot_len` of the chain's first fragment (a NULL chain has none). -/
def chainTotLen : List Pbuf → U32
  | [] => 0
  | q :: _ => q.totLen

/-- The representation invariant of a chain: each `tot_len` is the fragment's `len`
plus the next `tot_len`, and each fragment's memory holds its data. -/
def ChainOk : List Pbuf → Prop
  | [] => True
  | q :: qs => q.len.toNat ≤ q.payload.length ∧
      q.totLen.toNat = q.len.toNat + (chainTotLen qs).toNat ∧ ChainOk qs

instance ChainOk.decidable : DecidablePred ChainOk
  | [] => isTrue trivial
  | q :: qs =>
    have := ChainOk.decidable qs
    inferInstanceAs (Decidable (q.len.toNat ≤ q.payload.length ∧
      q.totLen.toNat = q.len.toNat + (chainTotLen qs).toNat ∧ ChainOk qs))

/-- Modelled from the spec: `pbuf_header(q, -n)` hides `n` bytes at the front of one
fragment; it refuses (the fragment unchanged) when `n` exceeds the fragment's length. -/
def pbufHeaderHide (q : Pbuf) (n : U32) : Pbuf :=
  if n ≤ q.len then
    { q with payload := q.payload.drop n.toNat, len := q.len - n, totLen := q.totLen - n }
  else q

/-- The walk of `pbuf_realloc` over the fragments it keeps; `none` when it runs past the
last fragment, a NULL dereference in C. -/
def reallocWalk (grow rem : U32) : List Pbuf → Option (List Pbuf)
  | [] => none
  | q :: qs =>
    if rem > q.len then ({ q with totLen := q.totLen + grow } :: ·) <$> reallocWalk grow (rem - q.len) qs
    else some [{ q with len := rem, totLen := rem }]

/-- Modelled from the spec: `pbuf_realloc(p, new_len)` right-trims a chain to `new_len`
bytes (it never grows one), freeing the fragments past the new end. -/
def pbufRealloc (p : List Pbuf) (newLen : U32) : Option (List Pbuf) :=
  if newLen ≥ chainTotLen p then some p else reallocWalk (newLen - chainTotLen p) newLen p

/-- Modelled from the spec: `pbuf_cat(h, t)` appends chain `t` to chain `h`. -/
def pbufCat (h t : List Pbuf) : List Pbuf :=
  h.map (fun q => { q with totLen := q.totLen + chainTotLen t }) ++ t

/-- Modelled from the spec: `pbuf_clen(p)`, the number of fragments of a chain. -/
def pbufClen (p : List Pbuf) : U32 := BitVec.ofNat 32 p.length

@[simp] theorem chainData_nil : chainData [] = [] := rfl
@[simp] theorem chainData_cons (q : Pbuf) (qs : List Pbuf) :
    chainData (q :: qs) = q.data ++ chainData qs := rfl
@[simp] theorem chainTotLen_cons (q : Pbuf) (qs : List Pbuf) :
    chainTotLen (q :: qs) = q.totLen := rfl

theorem chainData_append (p p' : List Pbuf) : chainData (p ++ p') = chainData p ++ chainData p' := by
  induction p with
  | nil => rfl
  | cons q qs ih => simp [ih]

theorem ChainOk.totLen_eq {p : List Pbuf} (h : ChainOk p) :
    (chainTotLen p).toNat = (chainData p).length := by
  induction p with
  | nil => rfl
  | cons q qs ih =>
    obtain ⟨hl, ht, hr⟩ := h
    simp only [chainTotLen_cons, chainData_cons, List.length_append, Pbuf.data, List.length_take]
    rw [ht, ih hr]
    omega

end XlioTcp
