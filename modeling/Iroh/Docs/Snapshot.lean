import Iroh.Docs.Store
import Iroh.Docs.Stream

/-!
# Snapshots of a document store

Reference: `docs/store_persist.go`, `docs/entry.go`, `docs/keys.go`, `key/key.go`.

`WriteTo` writes a magic string, the number of entries and every entry behind its length, in document
order.  `ReadFrom` checks each of these against a limit, decodes and verifies every entry and inserts it
through the same rules as any other insert; it stops at the first error, keeping what it has inserted.

Ed25519 is not part of this repository.  It is a parameter, of which one thing is used: a signature
verifies only under bytes that are a curve point.
-/

namespace Iroh.Docs

open Postcard (Decoder)

/-! ## Keys and signatures -/

/-- `crypto/ed25519` and `edwards25519`, as far as keys and signatures are checked. -/
structure Ed25519 where
  /-- Whether `Point.SetBytes` succeeds. -/
  validKey : Bytes32 → Bool
  /-- `ed25519.Verify`. -/
  verify : Bytes32 → Bytes → Vector UInt8 64 → Bool
  /-- `ed25519.Verify` decompresses the key first, and fails where `SetBytes` does. -/
  valid_of_verify : ∀ {key msg sig}, verify key msg sig → validKey key

inductive KeyError where
  | invalidKeyData
  | invalidSignature
deriving DecidableEq

namespace Ed25519

/-- `key.go::NewPublicKey`, which `NewNamespaceID` and `NewAuthorID` call through `NewEndpointID`. -/
def newPublicKey (k : Ed25519) (b : Bytes32) : Except KeyError Bytes32 :=
  if k.validKey b then .ok b else .error .invalidKeyData

/-- `PublicKey.Verify`, which `NamespaceID.Verify` and `AuthorID.Verify` call. -/
def verifySignature (k : Ed25519) (key : Bytes32) (msg : Bytes) (sig : Vector UInt8 64) :
    Except KeyError Unit :=
  if k.verify key msg sig then .ok () else .error .invalidSignature

end Ed25519

def uint64BE (x : UInt64) : Bytes :=
  (List.range 8).map fun i => (x >>> UInt64.ofNat (56 - 8 * i)).toUInt8

def Record.encode (r : Record) : Bytes := uint64BE r.len ++ r.hash.toList ++ uint64BE r.timestamp

/-- `Entry.Encode`: what the signatures sign. -/
def Entry.encode (e : Entry) : Bytes := e.id.bytes ++ e.record.encode

def EntrySignature.verify (k : Ed25519) (sig : EntrySignature) (entry : Entry)
    (namespaceID : NamespaceID) (author : AuthorID) : Except KeyError Unit := do
  k.verifySignature namespaceID entry.encode sig.namespaceSig
  k.verifySignature author entry.encode sig.author

def SignedEntry.verify (k : Ed25519) (s : SignedEntry) : Except KeyError Unit :=
  s.signature.verify k s.entry s.entry.namespaceID s.entry.id.author

/-! ## Decoding an entry -/

inductive EntryError where
  | postcard (err : Postcard.DecodeError)
  | identifierTooShort
  | key (err : KeyError)
deriving DecidableEq

/-- `copy` into a zeroed array of `n` bytes. -/
def copyBytes (n : ℕ) (b : Bytes) : Vector UInt8 n := Vector.ofFn fun i => b.getD i 0

def RecordIdentifier.decodePostcard (k : Ed25519) : Scanner UInt8 EntryError RecordIdentifier := do
  let b ← Decoder.bytesValue.adaptExcept .postcard
  if b.val.length < 64 then throw .identifierTooShort
  else
    let namespaceID ← ofExcept ((k.newPublicKey (copyBytes 32 b.val)).mapError .key)
    let author ← ofExcept ((k.newPublicKey (copyBytes 32 (b.val.drop 32))).mapError .key)
    return ⟨namespaceID, author, b.val.drop 64⟩

def Record.decodePostcard : Decoder Record := do
  let len ← Decoder.uint
  let hash ← Decoder.rawBytes 32
  let timestamp ← Decoder.uint
  return ⟨len, copyBytes 32 hash.toList, timestamp⟩

def EntrySignature.decodePostcard : Decoder EntrySignature := do
  let author ← Decoder.rawBytes 64
  let namespaceSig ← Decoder.rawBytes 64
  return ⟨copyBytes 64 author.toList, copyBytes 64 namespaceSig.toList⟩

/-- `SignedEntry` is a plain struct, and `Entry.DecodePostcard` decodes identifier and record. -/
def SignedEntry.decodePostcard (k : Ed25519) : Scanner UInt8 EntryError SignedEntry := do
  let signature ← EntrySignature.decodePostcard.adaptExcept .postcard
  let id ← RecordIdentifier.decodePostcard k
  let record ← Record.decodePostcard.adaptExcept .postcard
  return ⟨signature, ⟨id, record⟩⟩

/-- `postcard.Unmarshal` into a `SignedEntry`. -/
def SignedEntry.unmarshal (k : Ed25519) (b : Bytes) : Except EntryError SignedEntry :=
  match SignedEntry.decodePostcard k b with
  | .ok entry [] => .ok entry
  | .ok _ (_ :: _) => .error (.postcard .trailingBytes)
  | .error err _ => .error err

/-- `storeSnapshotMagic`: `go-iroh-docs-store`, a zero byte and the version. -/
def storeSnapshotMagic : Bytes :=
  [103, 111, 45, 105, 114, 111, 104, 45, 100, 111, 99, 115, 45, 115, 116, 111, 114, 101, 0, 1]

def maxStoreEntrySize : UInt64 := (16 : UInt64) <<< 20

def maxStoreEntries : UInt64 := 1000000

/-- One turn of `WriteTo`'s loop.  Encoding an entry cannot fail. -/
def writeEntry (entry : SignedEntry) : EStateM WriteError CountingWriter Unit := do
  writeUvarint entry.encodePostcard.length
  writeAll entry.encodePostcard

namespace MemoryStore

def entriesLocked (s : MemoryStore) : List SignedEntry := sortEntries s.entries.values

/-- The body of `WriteTo`, on its counting writer. -/
def writeSnapshot (s : MemoryStore) : EStateM WriteError CountingWriter Unit := do
  writeAll storeSnapshotMagic
  writeUvarint s.entriesLocked.length
  s.entriesLocked.forM writeEntry

/-- `WriteTo`: the writer afterwards, the number of bytes and the error. -/
def writeTo (s : MemoryStore) (w : Writer) : Writer × ℕ × Option WriteError :=
  match s.writeSnapshot ⟨w, 0⟩ with
  | .ok () cw => (cw.w, cw.n, none)
  | .error err cw => (cw.w, cw.n, some err)

end MemoryStore

/-! ## Reading -/

inductive SnapshotError where
  | header (err : ReadError)
  | invalidSnapshot
  | entryCount (err : ReadError)
  | entryCountTooLarge
  | entryLength (err : ReadError)
  | entryTooLarge
  | entry (err : ReadError)
  | decodeEntry (err : EntryError)
  | verifyEntry (err : KeyError)
deriving DecidableEq

/-- `ReadFrom` up to its loop: the number of entries. -/
def readHeader : Scanner UInt8 SnapshotError UInt64 := do
  let magic ← (readFull storeSnapshotMagic.length).adaptExcept .header
  if magic ≠ storeSnapshotMagic then throw .invalidSnapshot
  else
    let count ← readUvarint.adaptExcept .entryCount
    if count > maxStoreEntries then throw .entryCountTooLarge
    else return count

/-- One turn of `ReadFrom`'s loop, up to the insert. -/
def readEntry (k : Ed25519) : Scanner UInt8 SnapshotError SignedEntry := do
  let n ← readUvarint.adaptExcept .entryLength
  if n > maxStoreEntrySize then throw .entryTooLarge
  else
    let b ← (readFull n.toNat).adaptExcept .entry
    let entry ← ofExcept ((SignedEntry.unmarshal k b).mapError .decodeEntry)
    ofExcept ((entry.verify k).mapError .verifyEntry)
    return entry

namespace MemoryStore

/-- `ReadFrom`'s loop: the store, the bytes left and the error. -/
def readEntries (k : Ed25519) : ℕ → MemoryStore → Bytes → MemoryStore × Bytes × Option SnapshotError
  | 0, s, b => (s, b, none)
  | count + 1, s, b =>
    match readEntry k b with
    | .ok entry rest => readEntries k count (s.put entry).1 rest
    | .error err rest => (s, rest, some err)

/-- `ReadFrom` of a reader that yields `b`: the store, the number of bytes read and the error. -/
def readFrom (k : Ed25519) (s : MemoryStore) (b : Bytes) : MemoryStore × ℕ × Option SnapshotError :=
  match readHeader b with
  | .ok count rest =>
    let out := readEntries k count.toNat s rest
    (out.1, b.length - out.2.1.length, out.2.2)
  | .error err rest => (s, b.length - rest.length, some err)

end MemoryStore

end Iroh.Docs
