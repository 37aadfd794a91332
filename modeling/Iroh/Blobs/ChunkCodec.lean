import Iroh.Blobs.ChunkSelection
import Iroh.Blobs.ChunkTree
import Iroh.Common.EState

/-!
# Encoding and decoding chunk ranges

Reference: `blobs/chunkrange_bao.go`, `chunkRangeEncoder` to `DecodeBlobChunks`.

A response is the size of the blob, and then, in pre-order of the chunk tree, the values of the two
children of every node that is partly selected or larger than a group, and the bytes of what is
selected.  A node of which nothing is selected is left out.

Readers and writers are byte strings: the encoder reads the data and the outboard at given offsets
and appends to its output; the decoder consumes its input and appends to its output.  An error leaves
what was consumed and written.
-/

namespace Iroh.Blobs

open ChunkSelection

/-! ## Errors -/

inductive ReadError where
  | eof
  | unexpectedEOF
deriving DecidableEq

inductive ChunkError where
  | read (err : ReadError)
  | subtreeMismatch (start stop : ℕ)
  | selectedBlockMismatch (start stop : ℕ)
  | chunkMismatch (chunk : ℕ)
  | blockSubtreeMismatch (start stop : ℕ)
deriving DecidableEq

/-- Why a blob is invalid (`ErrInvalidBlob`). -/
inductive InvalidBlob where
  | truncatedSizePrefix
  | hashMismatch
  | emptySelection
  | chunk (err : ChunkError)
  | trailing (n : ℕ)
  | blockMismatch (start : ℕ)
  | outboardMismatch (start : ℕ)
  | emptyBlobMismatch
deriving DecidableEq

inductive BlobError where
  | invalidBlob (cause : InvalidBlob)
  | unsupportedRequest
  | readBlock (start : ℕ) (err : ReadError)
  | readOutboard (err : ReadError)
  | checkSize (text : String)
deriving DecidableEq

def maxInt64 : ℕ := 2 ^ 63 - 1

/-! ## The encoder -/

/-- A read of the outboard for the node of `n` chunks from `start` on. -/
structure OutboardRead where
  start : ℕ
  n : ℕ
  off : ℕ
  pair : Bytes
deriving DecidableEq

structure Written where
  output : Bytes
  reads : List OutboardRead
deriving DecidableEq

abbrev Encoder := EStateM BlobError Written

def readAtFull (b : Bytes) (off n : ℕ) : Except ReadError Bytes :=
  let got := (b.drop off).take n
  if got.length = n then .ok got else .error .eof

def Encoder.write (p : Bytes) : Encoder Unit := modify fun w => { w with output := w.output ++ p }

/-- `encodePartialBlock`: the value of the node and what it writes to its buffer. -/
def encodePartialBlock (G : Guts) (sel : ChunkSelection) (start n : ℕ) (data : Bytes)
    (root : Bool) : CV × Bytes :=
  let selected := sel.count start (start + n)
  if selected = 0 then (hashChunkTree G data start n root, [])
  else if _h : n ≤ 1 then (chunkCV G data start root, data)
  else
    let left := leftChunks n
    let leftLen := min (left * chunkSize) data.length
    if selected = n then (hashChunkTree G data start n root, data)
    else
      let l := encodePartialBlock G (sel.intersecting start (start + left)) start left
        (data.take leftLen) false
      let r := encodePartialBlock G (sel.intersecting (start + left) (start + n)) (start + left)
        (n - left) (data.drop leftLen) false
      -- the buffer starts with 64 bytes that are overwritten once both values are known
      let pair := List.replicate 64 0 ++ l.2 ++ r.2
      (parentCV G l.1 r.1 root, cvBytes l.1 ++ cvBytes r.1 ++ pair.drop 64)
termination_by n
decreasing_by
  · exact leftChunks_lt (by omega)
  · have := leftChunks_pos n
    omega

/-- `chunkRangeEncoder.subtree`. -/
def encodeSubtree (G : Guts) (data outboard : Bytes) (size : ℕ) (sel : ChunkSelection)
    (start n : ℕ) (root : Bool) (off : ℕ) (want : CV) : Encoder Unit := do
  let selected := sel.count start (start + n)
  if selected = 0 then return
  else if _h : n ≤ blockChunks then
    let lo := start * chunkSize
    let length := min (n * chunkSize) (size - lo)
    match readAtFull data lo length with
    | .error err => throw (.readBlock start err)
    | .ok buf =>
      if selected = n then
        if hashChunkTree G buf start n root ≠ want then
          throw (.invalidBlob (.blockMismatch start))
        else Encoder.write buf
      else
        let got := encodePartialBlock G sel start n buf root
        if got.1 ≠ want then throw (.invalidBlob (.blockMismatch start))
        else Encoder.write got.2
  else
    match readAtFull outboard off 64 with
    | .error err => throw (.readOutboard err)
    | .ok pair =>
      modify fun w => { w with reads := w.reads ++ [⟨start, n, off, pair⟩] }
      let leftCV := bytesToCV (pair.take 32)
      let rightCV := bytesToCV (pair.drop 32)
      if parentCV G leftCV rightCV root ≠ want then
        throw (.invalidBlob (.outboardMismatch start))
      else
        Encoder.write pair
        let left := leftChunks n
        let leftParents := (left + blockChunks - 1) / blockChunks - 1
        encodeSubtree G data outboard size (sel.intersecting start (start + left)) start left
          false (off + 64) leftCV
        encodeSubtree G data outboard size (sel.intersecting (start + left) (start + n))
          (start + left) (n - left) false (off + 64 + 64 * leftParents) rightCV
termination_by n
decreasing_by
  · have : blockChunks = 16 := rfl
    exact leftChunks_lt (by omega)
  · have : blockChunks = 16 := rfl
    have := leftChunks_pos n
    omega

def encodeBlobChunks (G : Guts) (hash : Hash) (size : ℕ) (data outboard : Bytes)
    (ranges : ChunkRanges) : Encoder Unit := do
  if size > maxInt64 then throw .unsupportedRequest
  else
    Encoder.write (leBytes 8 size)
    let chunks := chunkCount size
    if chunks = 0 then
      if hash ≠ newHash G [] then throw (.invalidBlob .emptyBlobMismatch) else return
    else
      let sel := selectChunks ranges chunks
      if sel.length = 0 then throw .unsupportedRequest
      else encodeSubtree G data outboard size sel 0 chunks true 8 (hashToCV hash)

/-! ## The decoder -/

structure Stream where
  input : Bytes
  output : Bytes
deriving DecidableEq

abbrev Decoder := EStateM ChunkError Stream

def readFull (n : ℕ) : Decoder Bytes := fun s =>
  if n ≤ s.input.length then .ok (s.input.take n) { s with input := s.input.drop n }
  else .error (.read (if s.input.isEmpty then .eof else .unexpectedEOF)) { s with input := [] }

def Decoder.write (p : Bytes) : Decoder Unit := modify fun s => { s with output := s.output ++ p }

def readChunkCV : Decoder CV := do
  let p ← readFull 32
  return bytesToCV p

/-- `chunkRangeDecoder.block`. -/
def decodeBlock (G : Guts) (size : ℕ) (sel : ChunkSelection) (start n : ℕ) (root : Bool)
    (want : CV) : Decoder Bool := do
  let selected := sel.count start (start + n)
  if selected = 0 then return true
  else if selected = n then
    let length := ((List.range' start n).map fun i => min chunkSize (sizeForChunk size i)).sum
    let buf ← readFull length
    if hashChunkTree G buf start n root ≠ want then throw (.selectedBlockMismatch start (start + n))
    else
      Decoder.write buf
      return true
  else if _h : n ≤ 1 then
    let buf ← readFull (sizeForChunk size start)
    if chunkCV G buf start root ≠ want then throw (.chunkMismatch start)
    else
      Decoder.write buf
      return true
  else
    let leftCV ← readChunkCV
    let rightCV ← readChunkCV
    if parentCV G leftCV rightCV root ≠ want then throw (.blockSubtreeMismatch start (start + n))
    else
      let left := leftChunks n
      let ok ← decodeBlock G size (sel.intersecting start (start + left)) start left false leftCV
      if !ok then return ok
      else
        decodeBlock G size (sel.intersecting (start + left) (start + n)) (start + left) (n - left)
          false rightCV
termination_by n
decreasing_by
  · exact leftChunks_lt (by omega)
  · have := leftChunks_pos n
    omega

/-- `chunkRangeDecoder.subtree`. -/
def decodeSubtree (G : Guts) (size : ℕ) (sel : ChunkSelection) (start n : ℕ) (root : Bool)
    (want : CV) : Decoder Bool := do
  let selected := sel.count start (start + n)
  if selected = 0 then return true
  else if _h : n ≤ blockChunks then decodeBlock G size sel start n root want
  else
    let leftCV ← readChunkCV
    let rightCV ← readChunkCV
    if parentCV G leftCV rightCV root ≠ want then throw (.subtreeMismatch start (start + n))
    else
      let left := leftChunks n
      let ok ← decodeSubtree G size (sel.intersecting start (start + left)) start left false leftCV
      if !ok then return ok
      else
        decodeSubtree G size (sel.intersecting (start + left) (start + n)) (start + left) (n - left)
          false rightCV
termination_by n
decreasing_by
  · have : blockChunks = 16 := rfl
    exact leftChunks_lt (by omega)
  · have : blockChunks = 16 := rfl
    have := leftChunks_pos n
    omega

/-- `decodeBlobChunksToWriter`. -/
def decodeBlobChunksWith (G : Guts) (expected : Hash) (ranges : ChunkRanges)
    (checkSize : Option (ℕ → Option String)) : EStateM BlobError Stream ℕ := do
  let sizeBuf ← (readFull 8).adaptExcept fun _ => .invalidBlob .truncatedSizePrefix
  let size := leNat sizeBuf
  if size > maxInt64 then throw .unsupportedRequest
  else match checkSize.bind (· size) with
    | some text => throw (.checkSize text)
    | none =>
      let chunks := chunkCount size
      if chunks = 0 then
        if expected ≠ newHash G [] then throw (.invalidBlob .hashMismatch) else return 0
      else
        let sel := selectChunks ranges chunks
        if sel.length = 0 then throw (.invalidBlob .emptySelection)
        else
          let ok ← (decodeSubtree G size sel 0 chunks true (hashToCV expected)).adaptExcept
            fun err => .invalidBlob (.chunk err)
          if !ok then throw (.invalidBlob .hashMismatch) else return size

def decodeBlobChunksToWriter (G : Guts) (expected : Hash) (ranges : ChunkRanges) :
    EStateM BlobError Stream ℕ :=
  decodeBlobChunksWith G expected ranges none

/-- `DecodeBlobChunks`: the selected bytes and the size. -/
def decodeBlobChunks (G : Guts) (expected : Hash) (encoded : Bytes) (ranges : ChunkRanges) :
    Except BlobError (Bytes × ℕ) :=
  match decodeBlobChunksToWriter G expected ranges ⟨encoded, []⟩ with
  | .error err _ => .error err
  | .ok size s =>
    if s.input.length ≠ 0 then .error (.invalidBlob (.trailing s.input.length))
    else .ok (s.output, size)

end Iroh.Blobs
