import Iroh.Common.EState
import Iroh.Common.Postcard
import Iroh.Blobs.ChunkTree
import Iroh.Blobs.Range

/-!
# Requests on the wire

Reference: `blobs/range.go`, `blobs/protocol.go` and the parser of `blobs/ticket.go`.

A get request names a root and a `ChunkRangesSeq`: which chunks of the root and of each child are
wanted, as a list of changes.  Offsets and spans are sent as differences and are added up in
`uint64` arithmetic, so a decoded sequence can have any offsets in any order; only its ranges are in
normal form (`decodeRequestBytes_normalized`).
-/

namespace Iroh.Blobs

/-! ## The parser -/

inductive WireError where
  | truncated
  | varintOverflow
  | trailingBytes
deriving DecidableEq

/-- `endpointticket.ParseError`, the kinds this package returns. -/
inductive ParseError where
  | postcard (err : WireError)
  | verify (message : String)
deriving DecidableEq

abbrev Parser := EStateM ParseError Bytes

/-- Go's `<<` on `uint64`, which gives zero from 64 on. -/
def shiftLeft64 (x : UInt64) (s : ℕ) : UInt64 := if s < 64 then x <<< UInt64.ofNat s else 0

/-- The loop of `parser.varint`: the `i`-th byte, and what the bytes before it gave. -/
def varintLoop (i : ℕ) (x : UInt64) : Bytes → Except WireError (UInt64 × Bytes)
  | [] => .error .truncated
  | c :: rest =>
    if c < 0x80 then
      if i > 9 ∨ (i = 9 ∧ c > 1) then .error .varintOverflow
      else .ok (x ||| shiftLeft64 c.toUInt64 (7 * i), rest)
    else varintLoop (i + 1) (x ||| shiftLeft64 (c &&& 0x7f).toUInt64 (7 * i)) rest

/-- `parser.varint`, with its error wrapped as every caller wraps it. -/
def Parser.varint : Parser UInt64 := fun b =>
  match varintLoop 0 0 b with
  | .ok q => .ok q.1 q.2
  | .error err => .error (.postcard err) b

def Parser.bytes (n : ℕ) : Parser Bytes := fun b =>
  if b.length < n then .error (.postcard .truncated) b else .ok (b.take n) (b.drop n)

def Parser.hash : Parser Hash := do
  let p ← Parser.bytes 32
  return Vector.ofFn fun i : Fin 32 => p.getD i 0

/-- A count that may not exceed what is left of the input, one byte or more for each element. -/
def Parser.count (elem : ℕ) : Parser ℕ := do
  let n ← Parser.varint
  let rest ← get
  if n.toNat > rest.length / elem then throw (.postcard .truncated) else return n.toNat

/-- `n` elements one after another. -/
def Parser.repeat {α : Type} (p : Parser α) : ℕ → Parser (List α)
  | 0 => return []
  | n + 1 => do
      let a ← p
      let l ← Parser.repeat p n
      return a :: l

/-! ## Range specs -/

structure RangeSpec where
  spans : List UInt64
deriving DecidableEq

def RangeSpec.isAll (s : RangeSpec) : Bool := s.spans = [0]

/-- The loop of `RangeSpec.ChunkRanges`: where it is, whether the next span is selected, and the
ranges so far. -/
def spansLoop : List UInt64 → UInt64 → Bool → List ChunkRange → ChunkRanges
  | [], current, on, ranges => ⟨ranges, if on then some current else none⟩
  | width :: spans, current, on, ranges =>
    let next := current + width
    spansLoop spans next (!on)
      (if on && next > current then ranges ++ [⟨current, next⟩] else ranges)

def RangeSpec.chunkRanges (s : RangeSpec) : ChunkRanges := (spansLoop s.spans 0 false []).normalize

def boundaries (r : ChunkRanges) : List UInt64 :=
  r.ranges.flatMap (fun cr => [cr.start, cr.stop]) ++ r.openStart.toList

/-- The loop of `RangeSpecFromRanges` over the boundaries after the first. -/
def spanWidths : UInt64 → List UInt64 → List UInt64
  | _, [] => []
  | prev, boundary :: rest => (boundary - prev) :: spanWidths boundary rest

def rangeSpecFromRanges (r : ChunkRanges) : RangeSpec :=
  match boundaries r.normalize with
  | [] => ⟨[]⟩
  | first :: rest => ⟨first :: spanWidths first rest⟩

def RangeSpec.encode (s : RangeSpec) : Bytes :=
  Postcard.slice (fun span : UInt64 => Postcard.varint span.toNat) s.spans

def decodeRangeSpec : Parser RangeSpec := do
  let n ← Parser.count 1
  let spans ← Parser.repeat Parser.varint n
  return ⟨spans⟩

/-! ## Range sequences -/

/-- `chunkRangesSeqEntry`: from `offset` on, these ranges. -/
structure ChunkRangesSeqEntry where
  offset : UInt64
  ranges : ChunkRanges
deriving DecidableEq

structure ChunkRangesSeq where
  entries : List ChunkRangesSeqEntry
deriving DecidableEq

/-- The loop of `ChunkRangesSeq.At`, which stops at the first entry beyond the offset. -/
def atLoop (offset : UInt64) : List ChunkRangesSeqEntry → ChunkRanges → ChunkRanges
  | [], ranges => ranges
  | e :: entries, ranges => if e.offset > offset then ranges else atLoop offset entries e.ranges

def ChunkRangesSeq.at (seq : ChunkRangesSeq) (offset : UInt64) : ChunkRanges :=
  atLoop offset seq.entries .rangeEmpty

def ChunkRangesSeq.isBlob (seq : ChunkRangesSeq) : Bool :=
  match seq.entries with
  | [a, b] => a.ranges.isAll && a.offset + 1 = b.offset && b.ranges.isEmpty
  | _ => false

/-- `chunkRangesSeqFromRanges` at its `i`-th ranges: an entry where they change. -/
def chunkRangesSeqLoop : List ChunkRanges → ℕ → ChunkRanges → List ChunkRangesSeqEntry
  | [], _, _ => []
  | r :: rest, i, prev =>
    if ChunkRanges.chunkRangesEqual r.normalize prev then chunkRangesSeqLoop rest (i + 1) prev
    else ⟨UInt64.ofNat i, r.normalize⟩ :: chunkRangesSeqLoop rest (i + 1) r.normalize

def chunkRangesSeqFromRanges (ranges : List ChunkRanges) : ChunkRangesSeq :=
  let entries := chunkRangesSeqLoop ranges 0 .rangeEmpty
  if entries.getLast?.any fun e => !e.ranges.isEmpty then
    ⟨entries ++ [⟨UInt64.ofNat ranges.length, .rangeEmpty⟩]⟩
  else ⟨entries⟩

def chunkRangesSeqFromRangesOpen (ranges : List ChunkRanges) : ChunkRangesSeq :=
  ⟨chunkRangesSeqLoop ranges 0 .rangeEmpty⟩

def encodeEntries : UInt64 → List ChunkRangesSeqEntry → Bytes
  | _, [] => []
  | offset, e :: entries =>
    Postcard.varint (e.offset - offset).toNat ++
      ((rangeSpecFromRanges e.ranges).encode ++ encodeEntries e.offset entries)

def ChunkRangesSeq.encode (seq : ChunkRangesSeq) : Bytes :=
  Postcard.varint seq.entries.length ++ encodeEntries 0 seq.entries

def decodeEntries : ℕ → UInt64 → Parser (List ChunkRangesSeqEntry)
  | 0, _ => return []
  | n + 1, offset => do
      let delta ← Parser.varint
      let spec ← decodeRangeSpec
      let entries ← decodeEntries n (offset + delta)
      return ⟨offset + delta, spec.chunkRanges⟩ :: entries

def decodeChunkRangesSeq : Parser ChunkRangesSeq := do
  let n ← Parser.count 1
  let entries ← decodeEntries n 0
  return ⟨entries⟩

/-! ## Requests -/

structure GetRequest where
  hash : Hash
  ranges : ChunkRangesSeq
deriving DecidableEq

structure ObserveRequest where
  hash : Hash
  ranges : RangeSpec
deriving DecidableEq

structure GetManyRequest where
  hashes : List Hash
  ranges : ChunkRangesSeq
deriving DecidableEq

/-- `protocol.go::Request`, with the payload its type says it has. -/
inductive Request where
  | get (r : GetRequest)
  | observe (r : ObserveRequest)
  | getMany (r : GetManyRequest)
deriving DecidableEq

/-- `EncodeRequestBytes` of a request that has the payload of its type. -/
def encodeRequestBytes : Request → Bytes
  | .get r => Postcard.varint 0 ++ (r.hash.toList ++ r.ranges.encode)
  | .observe r => Postcard.varint 1 ++ (r.hash.toList ++ r.ranges.encode)
  | .getMany r =>
    Postcard.varint 9 ++ (Postcard.varint r.hashes.length ++
      (r.hashes.flatMap Vector.toList ++ r.ranges.encode))

def decodeGetRequest : Parser GetRequest := do
  let hash ← Parser.hash
  let ranges ← decodeChunkRangesSeq
  return ⟨hash, ranges⟩

def decodeObserveRequest : Parser ObserveRequest := do
  let hash ← Parser.hash
  let ranges ← decodeRangeSpec
  return ⟨hash, ranges⟩

def decodeGetManyRequest : Parser GetManyRequest := do
  let n ← Parser.count 32
  let hashes ← Parser.repeat Parser.hash n
  let ranges ← decodeChunkRangesSeq
  return ⟨hashes, ranges⟩

def decodeRequest : Parser Request := do
  let t ← Parser.varint
  if t = 0 then
    let r ← decodeGetRequest
    return .get r
  else if t = 1 then
    let r ← decodeObserveRequest
    return .observe r
  else if t = 9 then
    let r ← decodeGetManyRequest
    return .getMany r
  else throw (.verify ("unsupported request type " ++ toString t.toNat))

def decodeRequestBytes (b : Bytes) : Except ParseError Request :=
  match decodeRequest b with
  | .error err _ => .error err
  | .ok req rest => if rest.isEmpty then .ok req else .error (.postcard .trailingBytes)

/-! ## What a decoded sequence looks like -/

lemma decodeEntries_normalized :
    ∀ {offset : UInt64} {b rest : Bytes} {entries : List ChunkRangesSeqEntry},
      decodeEntries n offset b = .ok entries rest → ∀ e ∈ entries, e.ranges.Normalized := by
  induction n with
  | zero =>
    intro offset b rest entries h e he
    obtain ⟨rfl, -⟩ := pure_eq_ok.mp h
    exact absurd he List.not_mem_nil
  | succ n ih =>
    intro offset b rest entries h e he
    obtain ⟨delta, b₁, -, h⟩ := bind_eq_ok.mp h
    obtain ⟨spec, b₂, -, h⟩ := bind_eq_ok.mp h
    obtain ⟨tail, b₃, htail, h⟩ := bind_eq_ok.mp h
    obtain ⟨rfl, -⟩ := pure_eq_ok.mp h
    rcases List.mem_cons.mp he with rfl | he
    · exact ChunkRanges.normalize_normalized _
    · exact ih htail e he

lemma decodeGetRequest_normalized
    (h : decodeGetRequest b = .ok r rest) : ∀ e ∈ r.ranges.entries, e.ranges.Normalized := by
  obtain ⟨hash, b₁, -, h⟩ := bind_eq_ok.mp h
  obtain ⟨seq, b₂, hseq, h⟩ := bind_eq_ok.mp h
  obtain ⟨rfl, -⟩ := pure_eq_ok.mp h
  obtain ⟨n, b₃, -, hseq⟩ := bind_eq_ok.mp hseq
  obtain ⟨entries, b₄, hentries, hseq⟩ := bind_eq_ok.mp hseq
  obtain ⟨rfl, -⟩ := pure_eq_ok.mp hseq
  exact decodeEntries_normalized hentries

lemma decodeRequest_get
    (h : decodeRequest b = .ok (.get r) rest) : ∃ b₁, decodeGetRequest b₁ = .ok r rest := by
  obtain ⟨t, b₁, -, h⟩ := bind_eq_ok.mp h
  split at h
  · obtain ⟨r', b₂, hget, h⟩ := bind_eq_ok.mp h
    obtain ⟨heq, rfl⟩ := pure_eq_ok.mp h
    cases heq
    exact ⟨b₁, hget⟩
  split at h
  · obtain ⟨r', b₂, -, h⟩ := bind_eq_ok.mp h
    exact absurd (pure_eq_ok.mp h).1 (by simp)
  split at h
  · obtain ⟨r', b₂, -, h⟩ := bind_eq_ok.mp h
    exact absurd (pure_eq_ok.mp h).1 (by simp)
  · exact absurd h throw_ne_ok

lemma decodeRequestBytes_normalized
    (h : decodeRequestBytes b = .ok (.get r)) : ∀ e ∈ r.ranges.entries, e.ranges.Normalized := by
  unfold decodeRequestBytes at h
  split at h
  · cases h
  next req rest hreq =>
    split at h
    · cases h
      obtain ⟨b₁, hget⟩ := decodeRequest_get hreq
      exact decodeGetRequest_normalized hget
    · cases h

end Iroh.Blobs
