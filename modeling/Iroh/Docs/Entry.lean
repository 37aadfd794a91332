import Iroh.Common.Bytes
import Mathlib.Data.Prod.Lex

/-!
# Document entries

Reference: `docs/entry.go`, `docs/keys.go`.

An entry is a record (content length, content hash, timestamp) under an identifier (namespace,
author, key).  Identifiers are compared as byte strings, records by timestamp and then by content
hash; `len` and the signatures never take part in a comparison.

`Triple` is what is left of an entry when the parts no comparison reads are dropped.  It is the
level at which two replicas agree.
-/

namespace Iroh.Docs

abbrev NamespaceID := Bytes32

abbrev AuthorID := Bytes32

/-- A blob hash (`blobs.Hash`). -/
abbrev Hash := Bytes32

/-- Whether an entry's content is available (`entry.go::ContentStatus`). -/
inductive ContentStatus where
  | complete
  | incomplete
  | missing
  | unknown (code : UInt64)
deriving DecidableEq

structure RecordIdentifier where
  namespaceID : NamespaceID
  author : AuthorID
  key : Bytes
deriving DecidableEq

structure Record where
  len : UInt64
  hash : Hash
  timestamp : UInt64
deriving DecidableEq

structure Entry where
  id : RecordIdentifier
  record : Record
deriving DecidableEq

/-- `entry.go::EntrySignature`: two 64-byte signatures. -/
structure EntrySignature where
  author : Vector UInt8 64
  namespaceSig : Vector UInt8 64
deriving DecidableEq

structure SignedEntry where
  signature : EntrySignature
  entry : Entry
deriving DecidableEq

/-! ## Identifiers -/

namespace RecordIdentifier

def zero : RecordIdentifier := ⟨Vector.replicate 32 0, Vector.replicate 32 0, []⟩

instance : Inhabited RecordIdentifier := ⟨zero⟩

/-- `RecordIdentifier.bytes`: namespace, author and key, concatenated. -/
def bytes (id : RecordIdentifier) : Bytes := id.namespaceID.toList ++ (id.author.toList ++ id.key)

def compare (id other : RecordIdentifier) : Ordering := bytesCompare id.bytes other.bytes

lemma bytes_injective : Function.Injective bytes := by
  rintro ⟨n, a, k⟩ ⟨n', a', k'⟩ h
  obtain ⟨hn, h⟩ := List.append_inj h (by simp)
  obtain ⟨ha, hk⟩ := List.append_inj h (by simp)
  exact (RecordIdentifier.mk.injEq ..).mpr ⟨toList_inj32.mp hn, toList_inj32.mp ha, hk⟩

/-- Identifiers in document order. -/
instance : LinearOrder RecordIdentifier := LinearOrder.lift' bytes bytes_injective

variable {a b : RecordIdentifier}

@[simp] lemma compare_eq_iff : a.compare b = .eq ↔ a = b :=
  bytesCompare_eq_iff.trans bytes_injective.eq_iff

@[simp] lemma compare_lt_iff : a.compare b = .lt ↔ a < b := bytesCompare_lt_iff

@[simp] lemma compare_gt_iff : a.compare b = .gt ↔ b < a := bytesCompare_gt_iff

@[simp] lemma compare_isLE_iff : (a.compare b).isLE ↔ a ≤ b := bytesCompare_isLE_iff

@[simp] lemma compare_isGE_iff : (a.compare b).isGE ↔ b ≤ a := bytesCompare_isGE_iff

end RecordIdentifier

namespace Record

/-- `Record.Compare`: by timestamp, then by content hash. -/
def compare (r other : Record) : Ordering :=
  if r.timestamp < other.timestamp then .lt
  else if other.timestamp < r.timestamp then .gt
  else bytesCompare r.hash.toList other.hash.toList

/-- What `compare` reads of a record, ordered as `compare` orders it. -/
def stamp (r : Record) : UInt64 ×ₗ Bytes := toLex (r.timestamp, r.hash.toList)

@[simp] lemma compare_isLE_iff {r o : Record} : (r.compare o).isLE ↔ r.stamp ≤ o.stamp := by
  simp only [compare, stamp, Prod.Lex.toLex_le_toLex]
  rcases lt_trichotomy r.timestamp o.timestamp with h | h | h
  · simp [h]
  · simp [h]
  · simp [h, h.not_gt, h.ne']

@[simp] lemma compare_isGE_iff {r o : Record} : (r.compare o).isGE ↔ o.stamp ≤ r.stamp := by
  simp only [compare, stamp, Prod.Lex.toLex_le_toLex]
  rcases lt_trichotomy r.timestamp o.timestamp with h | h | h
  · simp [h, h.not_gt, h.ne']
  · simp [h]
  · simp [h, h.not_gt]

end Record

/-! ## Entries -/

namespace Entry

def namespaceID (e : Entry) : NamespaceID := e.id.namespaceID

def timestamp (e : Entry) : UInt64 := e.record.timestamp

def compare (e other : Entry) : Ordering :=
  match e.id.compare other.id with
  | .eq => e.record.compare other.record
  | c => c

lemma compare_isLE_iff {e o : Entry} :
    (e.compare o).isLE ↔ toLex (e.id, e.record.stamp) ≤ toLex (o.id, o.record.stamp) := by
  rw [Prod.Lex.toLex_le_toLex]
  rcases lt_trichotomy e.id o.id with h | h | h
  · simp [compare, RecordIdentifier.compare_lt_iff.mpr h, h]
  · simp [compare, h, (RecordIdentifier.compare_eq_iff (a := o.id)).mpr rfl]
  · simp [compare, RecordIdentifier.compare_gt_iff.mpr h, h.not_gt, h.ne']

end Entry

/-- `entry.go::MaxTimestampFutureShift`: ten minutes, in microseconds. -/
def maxTimestampFutureShift : UInt64 := 10 * 60 * 1000000

/-- `entry.go::acceptTimestamp`, at the clock reading `now` in microseconds. -/
def acceptTimestamp (now : UInt64) (entry : Entry) : Bool :=
  entry.timestamp ≤ now + maxTimestampFutureShift

namespace SignedEntry

def compare (s other : SignedEntry) : Ordering := s.entry.compare other.entry

/-- The bytes `SignedEntry.Fingerprint` feeds to BLAKE3. -/
def fingerprintInput (s : SignedEntry) : Bytes :=
  s.entry.id.bytes ++ (List.range 8).map (fun i =>
    (s.entry.timestamp >>> (UInt64.ofNat (56 - 8 * i))).toUInt8) ++ s.entry.record.hash.toList

end SignedEntry

def SignedEntry.unsigned (namespaceID : NamespaceID) (key : Bytes) (timestamp : UInt64) :
    SignedEntry :=
  ⟨⟨Vector.replicate 64 0, Vector.replicate 64 0⟩,
    ⟨⟨namespaceID, Vector.replicate 32 0, key⟩, ⟨0, Vector.replicate 32 0, timestamp⟩⟩⟩

/-! ## Triples

Identifier, timestamp and content hash of an entry. -/

structure Triple where
  id : RecordIdentifier
  timestamp : UInt64
  hash : Hash
deriving DecidableEq

def SignedEntry.triple (e : SignedEntry) : Triple :=
  ⟨e.entry.id, e.entry.record.timestamp, e.entry.record.hash⟩

namespace Triple

def stamp (t : Triple) : UInt64 ×ₗ Bytes := toLex (t.timestamp, t.hash.toList)

lemma ext_stamp {t u : Triple} (hid : t.id = u.id) (hs : t.stamp = u.stamp) : t = u := by
  obtain ⟨i, ts, h⟩ := t
  obtain ⟨i', ts', h'⟩ := u
  simp only [stamp, EmbeddingLike.apply_eq_iff_eq, Prod.mk.injEq, toList_inj32] at hs
  simp_all

/-- `t` shadows `u`: same namespace and author, `t`'s key a byte prefix of `u`'s, and `t`'s record
not older. -/
def Shadows (t u : Triple) : Prop :=
  t.id.namespaceID = u.id.namespaceID ∧ t.id.author = u.id.author ∧ t.id.key <+: u.id.key ∧
    u.stamp ≤ t.stamp

instance : DecidableRel Shadows := fun _ _ => inferInstanceAs (Decidable (_ ∧ _ ∧ _ ∧ _))

/-- Shadowing orders triples: `t ≤ u` when `u` shadows `t`.  It is antisymmetric because equal keys
leave only the record to differ, and records are ordered linearly. -/
instance : PartialOrder Triple where
  le t u := u.Shadows t
  le_refl _ := ⟨rfl, rfl, List.prefix_rfl, le_rfl⟩
  le_trans _ _ _ h h' :=
    ⟨h'.1.trans h.1, h'.2.1.trans h.2.1, h'.2.2.1.trans h.2.2.1, h.2.2.2.trans h'.2.2.2⟩
  le_antisymm t u h h' := by
    have hkey : t.id.key = u.id.key := h'.2.2.1.eq_of_length_le h.2.2.1.length_le
    refine ext_stamp ?_ (le_antisymm h.2.2.2 h'.2.2.2)
    cases ht : t.id
    cases hu : u.id
    simp_all [Shadows]

lemma le_of_id_eq {t u : Triple} (hid : t.id = u.id) (hs : t.stamp ≤ u.stamp) : t ≤ u :=
  ⟨by rw [hid], by rw [hid], hid ▸ List.prefix_rfl, hs⟩

end Triple

def SignedEntry.Shadows (a b : SignedEntry) : Prop :=
  a.entry.id.namespaceID = b.entry.id.namespaceID ∧ a.entry.id.author = b.entry.id.author ∧
    a.entry.id.key <+: b.entry.id.key ∧ (a.entry.record.compare b.entry.record).isGE

lemma SignedEntry.shadows_iff {a b : SignedEntry} : a.Shadows b ↔ b.triple ≤ a.triple := by
  simp only [Shadows, Record.compare_isGE_iff]
  rfl

end Iroh.Docs
