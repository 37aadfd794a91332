import Iroh.Blobs.Bitfield
import Iroh.Blobs.ChunkCodec
import Iroh.Blobs.Request

/-!
# Serving requests

Reference: `blobs/transfer.go`, `blobs/provider.go`, `blobs/hashseq.go`.

The server reads one request and writes to the stream; what has been written stays written when it
fails half way, so it runs in a state monad whose state is the bytes written so far.

`lukechampine.com/blake3/bao` is outside the repository.  `Bao` has the two functions the server calls
of it, both for groups of 16 chunks.
-/

namespace Iroh.Blobs

def maxRequestSize : ℕ := 1 <<< 20

def maxSingleLeafSize : ℕ := 16 * chunkSize

/-- `bao.EncodeBuf` for a whole blob without an outboard, and `bao.ExtractSlice`. -/
structure Bao where
  encodeBuf : Bytes → Bytes × Hash
  extractSlice : (data outboard : Bytes) → (offset length : ℕ) → Except String Bytes

/-- `provider.go::Blob`: what `Size`, `IsComplete`, `DataReader` and `Outboard` return. -/
structure Blob where
  size : ℕ
  verified : Bool
  isComplete : Bool
  dataReader : Except String Bytes
  outboard : Except String Bytes

/-- `provider.go::Store`, by its `Open`. -/
abbrev Store := Hash → Except String Blob

inductive ServeError where
  | requestTooLarge
  | decodeRequest (err : ParseError)
  | unsupportedRequest
  | blobNotFound
  | store (err : String)
  | singleLeafTooLarge (size : ℕ)
  | hashSequenceLength (length : ℕ)
  | openData (err : String)
  | openOutboard (err : String)
  | readBlob (err : String)
  | readData (err : ReadError)
  | extract (err : String)
  | encode (err : BlobError)
  | hashMismatch
  | observeItemTooLarge
deriving DecidableEq

abbrev Server := EStateM ServeError Bytes

def Server.write (p : Bytes) : Server Unit := modify (· ++ p)

def Server.lift {α : Type} : Except ServeError α → Server α
  | .ok a => pure a
  | .error err => throw err

def Server.encode (x : Encoder Unit) : Server Unit := fun out =>
  match x ⟨out, []⟩ with
  | .ok _ w => .ok () w.output
  | .error err w => .error (.encode err) w.output

section

variable (G : Guts) (bao : Bao) (store : Store)

/-- `store.Open`, which every reader calls first. -/
def openBlob (hash : Hash) : Except ServeError Blob := (store hash).mapError .store

def readBlob (hash : Hash) : Except ServeError Bytes := do
  let blob ← openBlob store hash
  if !blob.isComplete then throw .blobNotFound
  else if !blob.verified then throw .blobNotFound
  else if blob.size > maxInt64 then throw .unsupportedRequest
  else
    let data ← blob.dataReader.mapError .readBlob
    if data.length < blob.size then
      throw (.readData (if data.isEmpty then .eof else .unexpectedEOF))
    else return data.take blob.size

/-- The loop of `ParseHashSequence`, over a length that is a multiple of the hash size. -/
def hashSequenceLoop : ℕ → Bytes → List Hash
  | 0, _ => []
  | n + 1, b => (Vector.ofFn fun i : Fin 32 => b.getD i 0) :: hashSequenceLoop n (b.drop 32)

def parseHashSequence (b : Bytes) : Except ServeError (List Hash) :=
  if b.length % 32 ≠ 0 then .error (.hashSequenceLength b.length)
  else .ok (hashSequenceLoop (b.length / 32) b)

def extractRange (blob : Blob) (offset length : ℕ) : Except ServeError Bytes := do
  if blob.size > maxInt64 then throw .unsupportedRequest
  else
    let data ← blob.dataReader.mapError .openData
    let outboard ← blob.outboard.mapError .openOutboard
    if outboard.length > maxInt64 then throw .unsupportedRequest
    else (bao.extractSlice (data.take blob.size) outboard offset length).mapError .extract

def writeBlob (hash : Hash) (singleLeaf : Bool) : Server Unit := do
  let blob ← Server.lift (openBlob store hash)
  if !blob.isComplete || !blob.verified then throw .blobNotFound
  else if singleLeaf && blob.size > maxSingleLeafSize then throw (.singleLeafTooLarge blob.size)
  else
    let encoded ← Server.lift (extractRange bao blob 0 blob.size)
    Server.write encoded

def writeBlobRange (hash : Hash) (ranges : ChunkRanges) : Server Unit := do
  let blob ← Server.lift (openBlob store hash)
  if !blob.isComplete || !blob.verified then throw .blobNotFound
  else
    let data ← Server.lift (blob.dataReader.mapError .openData)
    let outboard ← Server.lift (blob.outboard.mapError .openOutboard)
    Server.encode (encodeBlobChunks G hash blob.size data outboard ranges)

/-- `EncodeBlob` and `EncodeSingleLeaf`. -/
def encoderFor (singleLeaf : Bool) (data : Bytes) : Except ServeError (Hash × Bytes) :=
  if singleLeaf && data.length > maxSingleLeafSize then .error (.singleLeafTooLarge data.length)
  else
    let encoded := bao.encodeBuf data
    .ok (encoded.2, encoded.1)

def writeBlobBytes (hash : Hash) (data : Bytes) (singleLeaf : Bool) : Server Unit := do
  let got ← Server.lift (encoderFor bao singleLeaf data)
  if got.1 ≠ hash then throw .hashMismatch else Server.write got.2

/-- `writeGet`'s choice between the two ways of sending a blob from the store. -/
def writeRanges (hash : Hash) (ranges : ChunkRanges) (singleLeaf : Bool) : Server Unit :=
  if ranges.isAll then writeBlob bao store hash singleLeaf
  else writeBlobRange G store hash ranges

/-- `writeGet`'s root of a hash sequence, which it has in memory already. -/
def writeRoot (hash : Hash) (root : Bytes) (ranges : ChunkRanges) (singleLeaf : Bool) :
    Server Unit :=
  if ranges.isEmpty then return
  else if ranges.isAll then writeBlobBytes bao hash root singleLeaf
  else writeBlobRange G store hash ranges

/-- `writeGet`'s test whether anything but the root is asked for. -/
def childrenRequested (ranges : ChunkRangesSeq) : Bool :=
  !(ranges.at 1).isEmpty || ranges.entries.any fun e => e.offset > 0 && !e.ranges.isEmpty

/-- The entries up to a child's offset, taken off the front: the ranges of the last of them, and what
is left. -/
def advance (childOffset : UInt64) :
    List ChunkRangesSeqEntry → ChunkRanges → List ChunkRangesSeqEntry × ChunkRanges
  | [], ranges => ([], ranges)
  | e :: entries, ranges =>
    if e.offset ≤ childOffset then advance childOffset entries e.ranges
    else (e :: entries, ranges)

/-- The loop of `writeGet` over the children from index `i` on. -/
def writeChildren (singleLeaf : Bool) : ℕ → List Hash → List ChunkRangesSeqEntry → ChunkRanges →
    Server Unit
  | _, [], _, _ => return
  | i, hash :: hashes, entries, childRanges => do
      let cursor := advance (UInt64.ofNat i + 1) entries childRanges
      if cursor.2.isEmpty then writeChildren singleLeaf (i + 1) hashes cursor.1 cursor.2
      else
        writeRanges G bao store hash cursor.2 singleLeaf
        writeChildren singleLeaf (i + 1) hashes cursor.1 cursor.2

def writeGet (req : GetRequest) (singleLeaf : Bool) : Server Unit := do
  if req.ranges.isBlob then writeBlob bao store req.hash singleLeaf
  else
    let rootRanges := req.ranges.at 0
    if !childrenRequested req.ranges then
      if rootRanges.isEmpty then return
      else writeRanges G bao store req.hash rootRanges singleLeaf
    else
      let root ← Server.lift (readBlob store req.hash)
      let seq ← Server.lift (parseHashSequence root)
      writeRoot G bao store req.hash root rootRanges singleLeaf
      writeChildren G bao store singleLeaf 0 seq req.ranges.entries .rangeEmpty

/-- The loop of `serveBlob` over the hashes of a get-many request, from index `i` on. -/
def writeMany (singleLeaf : Bool) (ranges : ChunkRangesSeq) : ℕ → List Hash → Server Unit
  | _, [] => return
  | i, hash :: hashes => do
      let r := ranges.at (UInt64.ofNat i)
      if r.isEmpty then writeMany singleLeaf ranges (i + 1) hashes
      else if !r.isAll then throw .unsupportedRequest
      else
        writeBlob bao store hash singleLeaf
        writeMany singleLeaf ranges (i + 1) hashes

def writeObserve (req : ObserveRequest) : Server Unit := do
  let blob ← Server.lift (openBlob store req.hash)
  if !blob.isComplete || !blob.verified then throw .blobNotFound
  else
    let size := UInt64.ofNat blob.size
    let item := Bitfield.encodeObserveItem
      (if req.ranges.isAll then .complete size else .new size req.ranges.chunkRanges)
    if item.length > maxObserveItemSize then throw .observeItemTooLarge
    else Server.write (Postcard.varint item.length ++ item)

/-- `serveBlob`, on the bytes the client sends before it closes its side. -/
def serveBlob (singleLeaf hashSeq : Bool) (sent : Bytes) : Server Unit := do
  let requestBytes := sent.take (maxRequestSize + 1)
  if requestBytes.length > maxRequestSize then throw .requestTooLarge
  else
    let req ← Server.lift ((decodeRequestBytes requestBytes).mapError .decodeRequest)
    match req with
    | .get get =>
      if !hashSeq && !get.ranges.isBlob then throw .unsupportedRequest
      else writeGet G bao store get singleLeaf
    | .getMany many => writeMany bao store singleLeaf many.ranges 0 many.hashes
    | .observe observe => writeObserve store observe

end

end Iroh.Blobs
