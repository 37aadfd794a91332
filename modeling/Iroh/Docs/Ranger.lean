import Iroh.Common.Postcard
import Iroh.Docs.Entry

/-!
# Range reconciliation messages

Reference: `docs/ranger.go`.

Ranges of identifiers are half open and wrap around: `[x, y)` with `y < x` is everything from `x`
up together with everything below `y`, and `[x, x)` is the whole set.  A message part either
describes a range by the xor of its entries' fingerprints or carries the entries themselves.
-/

namespace Iroh.Docs

abbrev Fingerprint := Bytes32

/-- `blake3.Sum256`, which is not part of this repository. -/
abbrev Blake3 := Bytes → Bytes32

def emptyFingerprint (blake3 : Blake3) : Fingerprint := blake3 []

def Fingerprint.xor (f other : Fingerprint) : Fingerprint := f.zipWith (· ^^^ ·) other

def SignedEntry.fingerprint (blake3 : Blake3) (s : SignedEntry) : Fingerprint :=
  blake3 s.fingerprintInput

def entriesFingerprint (blake3 : Blake3) (entries : List SignedEntry) : Fingerprint :=
  entries.foldl (fun fp e => Fingerprint.xor fp (e.fingerprint blake3)) (emptyFingerprint blake3)

/-- `ranger.go::SyncConfig`, without the `splitHook` that only tests set. -/
structure SyncConfig where
  maxSetSize : ℤ
  splitFactor : ℤ
deriving DecidableEq

def SyncConfig.withDefaults (c : SyncConfig) : SyncConfig where
  maxSetSize := if c.maxSetSize = 0 then 1 else c.maxSetSize
  splitFactor := if c.splitFactor < 2 then 2 else c.splitFactor

/-! ## Ranges -/

/-- `ranger.go::Range`, the half-open range `[start, stop)`. -/
structure Range where
  start : RecordIdentifier
  stop : RecordIdentifier
deriving DecidableEq

namespace Range

def zero : Range := ⟨.zero, .zero⟩

def isAll (r : Range) : Bool := r.start.compare r.stop = .eq

def contains (r : Range) (id : RecordIdentifier) : Bool :=
  match r.start.compare r.stop with
  | .eq => true
  | .lt => (r.start.compare id).isLE && (id.compare r.stop).isLT
  | .gt => (r.start.compare id).isLE || (id.compare r.stop).isLT

@[simp] lemma isAll_iff {r : Range} : r.isAll ↔ r.start = r.stop := by
  simp [isAll]

lemma contains_iff {r : Range} {id : RecordIdentifier} :
    r.contains id ↔ r.start = r.stop ∨ (r.start < r.stop ∧ r.start ≤ id ∧ id < r.stop) ∨
      (r.stop < r.start ∧ (r.start ≤ id ∨ id < r.stop)) := by
  have hlt : (id.compare r.stop).isLT ↔ id < r.stop := by
    rw [← RecordIdentifier.compare_lt_iff]
    cases id.compare r.stop <;> simp
  rcases lt_trichotomy r.start r.stop with h | h | h
  · simp [contains, RecordIdentifier.compare_lt_iff.mpr h, h, h.ne, h.not_gt]
  · simp [contains, h, (RecordIdentifier.compare_eq_iff (a := r.stop)).mpr rfl]
  · simp [contains, RecordIdentifier.compare_gt_iff.mpr h, h, h.ne', h.not_gt]

end Range

/-! ## Messages -/

structure RangeFingerprint where
  range : Range
  fingerprint : Fingerprint
deriving DecidableEq

structure RangeValue where
  entry : SignedEntry
  status : ContentStatus
deriving DecidableEq

structure RangeItem where
  range : Range
  values : List RangeValue
  haveLocal : Bool
deriving DecidableEq

/-- `ranger.go::MessagePart`.  Only the fields its kind selects are ever read, so the kinds are the
constructors; a part of any other kind is skipped by every reader. -/
inductive MessagePart where
  | rangeFingerprint (part : RangeFingerprint)
  | rangeItem (part : RangeItem)
  | unknown (kind : ℕ)
deriving DecidableEq

structure Message where
  parts : List MessagePart
deriving DecidableEq

def MessagePart.values : MessagePart → List RangeValue
  | .rangeItem item => item.values
  | _ => []

def Message.values (m : Message) : List RangeValue := m.parts.flatMap MessagePart.values

/-! ## Wire form

`postcard.Marshal` of a message part; only its length is read by the reconciliation code. -/

def ContentStatus.code : ContentStatus → ℕ
  | .complete => 0
  | .incomplete => 1
  | .missing => 2
  | .unknown code => code.toNat

def RecordIdentifier.encodePostcard (id : RecordIdentifier) : Bytes := Postcard.bytesValue id.bytes

/-- `SignedEntry` and the structs in it, field by field. -/
def SignedEntry.encodePostcard (s : SignedEntry) : Bytes :=
  s.signature.author.toList ++ s.signature.namespaceSig.toList ++ s.entry.id.encodePostcard ++
    Postcard.varint s.entry.record.len.toNat ++ s.entry.record.hash.toList ++
    Postcard.varint s.entry.record.timestamp.toNat

def Range.encodePostcard (r : Range) : Bytes := r.start.encodePostcard ++ r.stop.encodePostcard

def RangeValue.encodePostcard (v : RangeValue) : Bytes :=
  v.entry.encodePostcard ++ Postcard.varint v.status.code

/-- `MessagePart.EncodePostcard`; an unknown kind is an encoding error. -/
def MessagePart.marshal : MessagePart → Option Bytes
  | .rangeFingerprint p =>
    some (Postcard.varint 0 ++ p.range.encodePostcard ++ p.fingerprint.toList)
  | .rangeItem p =>
    some (Postcard.varint 1 ++ p.range.encodePostcard ++
      Postcard.slice RangeValue.encodePostcard p.values ++ Postcard.bool p.haveLocal)
  | .unknown _ => none

end Iroh.Docs
