import Iroh.Docs.Scope
import Iroh.Docs.Snapshot

/-!
# What a snapshot brings back

`WriteTo` writes `snapshot s` when it succeeds (`writes_writeSnapshot`).  Each decoder reads what its encoder
wrote, so within the limits the loop runs through and inserts the entries one after the other
(`readEntries_frames`).  The writer knows no limits: a store of more than `maxStoreEntries` entries, or with
an entry that takes more than `maxStoreEntrySize` bytes, is written and cannot be read back.
-/

namespace Iroh.Docs

open List hiding Vector
open Postcard (Decoder varint)

/-! ## Decoding what was encoded -/

variable {n : ℕ} {k : Ed25519} {e : SignedEntry}

@[simp] lemma copyBytes_append (v : Vector UInt8 n) (rest : Bytes) :
    copyBytes n (v.toList ++ rest) = v := by
  refine Vector.ext fun i hi => ?_
  have hlen : i < v.toList.length := by simpa using hi
  rw [copyBytes, Vector.getElem_ofFn, getD_eq_getElem?_getD, getElem?_append_left hlen,
    getElem?_eq_getElem hlen, Option.getD_some, Vector.getElem_toList]

@[simp] lemma copyBytes_toList (v : Vector UInt8 n) : copyBytes n v.toList = v := by
  simpa using copyBytes_append v []

lemma reads_rawBytes_toList (v : Vector UInt8 n) :
    Reads (Decoder.rawBytes n) v.toList ⟨v.toList, v.length_toList⟩ :=
  Postcard.reads_rawBytes ⟨v.toList, v.length_toList⟩

lemma reads_entrySignature (sig : EntrySignature) :
    Reads EntrySignature.decodePostcard (sig.author.toList ++ sig.namespaceSig.toList) sig := by
  refine (reads_rawBytes_toList sig.author).bind ?_
  refine (reads_rawBytes_toList sig.namespaceSig).bind_pure_eq ?_
  exact congrArg₂ EntrySignature.mk (copyBytes_toList _) (copyBytes_toList _)

lemma reads_record (r : Record) : Reads Record.decodePostcard
      (varint r.len.toNat ++ (r.hash.toList ++ varint r.timestamp.toNat)) r := by
  refine (Postcard.reads_uint r.len).bind ((reads_rawBytes_toList r.hash).bind ?_)
  refine (Postcard.reads_uint r.timestamp).bind_pure_eq ?_
  exact congrArg (fun hash => Record.mk r.len hash r.timestamp) (copyBytes_toList r.hash)

lemma length_bytes (id : RecordIdentifier) : id.bytes.length = 64 + id.key.length := by
  simp only [RecordIdentifier.bytes, length_append, Vector.length_toList]
  omega

lemma reads_recordIdentifier {id : RecordIdentifier} (hns : k.validKey id.namespaceID)
    (hauthor : k.validKey id.author) (hlen : id.bytes.length < 2 ^ 64) :
    Reads (RecordIdentifier.decodePostcard k) id.encodePostcard id := by
  rw [← append_nil id.encodePostcard]
  refine ((Postcard.reads_bytesValue ⟨id.bytes, hlen⟩).adaptExcept EntryError.postcard).bind ?_
  have hdrop : id.bytes.drop 32 = id.author.toList ++ id.key :=
    drop_left' id.namespaceID.length_toList
  have hkey : id.bytes.drop 64 = id.key := by
    rw [show (64 : ℕ) = 32 + 32 from rfl, ← drop_drop, hdrop]
    exact drop_left' id.author.length_toList
  have hcopy : copyBytes 32 id.bytes = id.namespaceID := copyBytes_append _ _
  have hshort : ¬id.bytes.length < 64 := by
    rw [length_bytes]
    omega
  rw [if_neg hshort, hdrop, hkey, hcopy, copyBytes_append, Ed25519.newPublicKey,
    Ed25519.newPublicKey, if_pos hns, if_pos hauthor]
  exact reads_pure id

lemma reads_signedEntry (hns : k.validKey e.entry.id.namespaceID)
    (hauthor : k.validKey e.entry.id.author) (hlen : e.entry.id.bytes.length < 2 ^ 64) :
    Reads (SignedEntry.decodePostcard k) e.encodePostcard e := by
  have hfields : e.encodePostcard = (e.signature.author.toList ++ e.signature.namespaceSig.toList) ++
      (e.entry.id.encodePostcard ++ (varint e.entry.record.len.toNat ++
        (e.entry.record.hash.toList ++ varint e.entry.record.timestamp.toNat))) := by
    simp [SignedEntry.encodePostcard]
  rw [hfields]
  refine ((reads_entrySignature e.signature).adaptExcept EntryError.postcard).bind ?_
  refine (reads_recordIdentifier hns hauthor hlen).bind ?_
  exact ((reads_record e.entry.record).adaptExcept EntryError.postcard).bind_pure_eq rfl

/-! ## The bytes of a snapshot -/

def frame (e : SignedEntry) : Bytes := varint e.encodePostcard.length ++ e.encodePostcard

/-- What `WriteTo` writes of a store. -/
def MemoryStore.snapshot (s : MemoryStore) : Bytes :=
  storeSnapshotMagic ++ (varint s.entriesLocked.length ++ s.entriesLocked.flatMap frame)

lemma writes_writeEntry (e : SignedEntry) : Writes (writeEntry e) (frame e) :=
  (writes_writeAll _).bind fun _ => writes_writeAll _

lemma writes_forM_writeEntry (es : List SignedEntry) :
    Writes (es.forM writeEntry) (es.flatMap frame) := by
  induction es with
  | nil => exact writes_pure PUnit.unit
  | cons e es ih =>
    exact (writes_writeEntry e).bind fun _ => ih

lemma writes_writeSnapshot (s : MemoryStore) : Writes s.writeSnapshot s.snapshot :=
  (writes_writeAll _).bind fun _ => (writes_writeAll _).bind fun _ => writes_forM_writeEntry _

lemma validKey_of_verify (h : e.verify k = .ok ()) :
    k.validKey e.entry.id.namespaceID ∧ k.validKey e.entry.id.author := by
  unfold SignedEntry.verify EntrySignature.verify Ed25519.verifySignature at h
  split at h
  next hns =>
    split at h
    next hauthor => exact ⟨k.valid_of_verify hns, k.valid_of_verify hauthor⟩
    · cases h
  · cases h

lemma unmarshal_encodePostcard (hverify : e.verify k = .ok ())
    (hlen : e.encodePostcard.length < 2 ^ 64) : SignedEntry.unmarshal k e.encodePostcard = .ok e := by
  obtain ⟨hns, hauthor⟩ := validKey_of_verify hverify
  have hid : e.entry.id.bytes.length < 2 ^ 64 := by
    refine Nat.lt_of_le_of_lt ?_ hlen
    simp only [SignedEntry.encodePostcard, RecordIdentifier.encodePostcard, Postcard.bytesValue,
      length_append]
    omega
  have hread := reads_signedEntry hns hauthor hid []
  rw [append_nil] at hread
  rw [SignedEntry.unmarshal, hread]

lemma ofNat_gt_iff {max : UInt64} (hn : n < 2 ^ 64) : UInt64.ofNat n > max ↔ max.toNat < n := by
  rw [gt_iff_lt, UInt64.lt_iff_toNat_lt, UInt64.toNat_ofNat_of_lt' hn]

lemma reads_readEntry (hverify : e.verify k = .ok ())
    (hsize : e.encodePostcard.length ≤ maxStoreEntrySize.toNat) : Reads (readEntry k) (frame e) e := by
  have hlen := Nat.lt_of_le_of_lt hsize maxStoreEntrySize.toNat_lt
  refine ((reads_readUvarint hlen).adaptExcept SnapshotError.entryLength).bind ?_
  rw [if_neg (mt (ofNat_gt_iff hlen).mp hsize.not_gt), UInt64.toNat_ofNat_of_lt' hlen,
    ← append_nil e.encodePostcard]
  refine Reads.bind (a := e.encodePostcard) ?_ ?_
  · rw [append_nil]
    exact (reads_readFull e.encodePostcard).adaptExcept SnapshotError.entry
  · rw [unmarshal_encodePostcard hverify hlen]
    show Reads (ofExcept ((e.verify k).mapError SnapshotError.verifyEntry) >>= fun _ => pure e) [] e
    rw [hverify]
    exact reads_pure e

lemma readEntry_entryTooLarge (rest : Bytes) (hsize : maxStoreEntrySize.toNat < e.encodePostcard.length)
    (hlen : e.encodePostcard.length < 2 ^ 64) :
    readEntry k (frame e ++ rest) = .error .entryTooLarge (e.encodePostcard ++ rest) := by
  have hread := (reads_readUvarint hlen).adaptExcept SnapshotError.entryLength
    (e.encodePostcard ++ rest)
  rw [frame, append_assoc, readEntry, bind_of_ok hread, if_pos ((ofNat_gt_iff hlen).mpr hsize)]
  rfl

lemma readEntry_of_large (rest : Bytes) (hsize : maxStoreEntrySize.toNat < e.encodePostcard.length) :
    ∃ err left, readEntry k (frame e ++ rest) = .error err left := by
  rcases Nat.lt_or_ge e.encodePostcard.length (2 ^ 64) with hlen | hlen
  · exact ⟨_, _, readEntry_entryTooLarge rest hsize hlen⟩
  · obtain ⟨left, hread⟩ := readUvarintLoop_overflow (i := 0) (v := 0) (e.encodePostcard ++ rest)
      (by decide) hlen
    rw [frame, append_assoc]
    exact ⟨_, _, bind_of_error (adaptExcept_of_error hread SnapshotError.entryLength) _⟩

lemma reads_readHeader (hn : n ≤ maxStoreEntries.toNat) :
    Reads readHeader (storeSnapshotMagic ++ varint n) (UInt64.ofNat n) := by
  have hlen := Nat.lt_of_le_of_lt hn maxStoreEntries.toNat_lt
  refine ((reads_readFull storeSnapshotMagic).adaptExcept SnapshotError.header).bind ?_
  rw [if_neg (not_not_intro rfl), ← append_nil (varint n)]
  refine ((reads_readUvarint hlen).adaptExcept SnapshotError.entryCount).bind ?_
  rw [if_neg (mt (ofNat_gt_iff hlen).mp hn.not_gt)]
  exact reads_pure _

lemma readHeader_of_large (rest : Bytes) (hn : maxStoreEntries.toNat < n) :
    ∃ err left, readHeader (storeSnapshotMagic ++ (varint n ++ rest)) = .error err left := by
  have hmagic := (reads_readFull storeSnapshotMagic).adaptExcept SnapshotError.header
    (varint n ++ rest)
  rw [readHeader, bind_of_ok hmagic, if_neg (not_not_intro rfl)]
  rcases Nat.lt_or_ge n (2 ^ 64) with hlen | hlen
  · have hcount := (reads_readUvarint hlen).adaptExcept SnapshotError.entryCount rest
    rw [bind_of_ok hcount, if_pos ((ofNat_gt_iff hlen).mpr hn)]
    exact ⟨_, _, rfl⟩
  · obtain ⟨left, hread⟩ := readUvarintLoop_overflow (i := 0) (v := 0) rest (by decide) hlen
    exact ⟨_, _, bind_of_error (adaptExcept_of_error hread SnapshotError.entryCount) _⟩

namespace MemoryStore

/-! ## The loop -/

variable {k : Ed25519} {es : List SignedEntry} {s : MemoryStore} {entry e : SignedEntry} {env : Env}

lemma readEntries_frames (s : MemoryStore) (rest : Bytes) (hverify : ∀ e ∈ es, e.verify k = .ok ())
    (hsize : ∀ e ∈ es, e.encodePostcard.length ≤ maxStoreEntrySize.toNat) :
    readEntries k es.length s (es.flatMap frame ++ rest) =
      (es.foldl (fun s e => (s.put e).1) s, rest, none) := by
  induction es generalizing s with
  | nil => rfl
  | cons e es ih =>
    have hread := reads_readEntry (hverify e mem_cons_self) (hsize e mem_cons_self)
      (es.flatMap frame ++ rest)
    rw [length_cons, readEntries, flatMap_cons, append_assoc, hread]
    exact ih (s.put e).1 (fun e' he' => hverify e' (mem_cons_of_mem _ he'))
      fun e' he' => hsize e' (mem_cons_of_mem _ he')

lemma readEntries_of_large (s : MemoryStore) (rest : Bytes) (hverify : ∀ e ∈ es, e.verify k = .ok ())
    (hlarge : ∃ e ∈ es, maxStoreEntrySize.toNat < e.encodePostcard.length) :
    (readEntries k es.length s (es.flatMap frame ++ rest)).2.2 ≠ none := by
  induction es generalizing s with
  | nil =>
    obtain ⟨e, he, -⟩ := hlarge
    exact absurd he not_mem_nil
  | cons e es ih =>
    rw [length_cons, readEntries, flatMap_cons, append_assoc]
    rcases Nat.lt_or_ge maxStoreEntrySize.toNat e.encodePostcard.length with hlt | hle
    · obtain ⟨err, left, hread⟩ := readEntry_of_large (k := k) (es.flatMap frame ++ rest) hlt
      rw [hread]
      exact Option.some_ne_none err
    · -- the first entry is read, so the large one is among the others
      rw [reads_readEntry (hverify e mem_cons_self) hle (es.flatMap frame ++ rest)]
      refine ih (s.put e).1 (fun e' he' => hverify e' (mem_cons_of_mem _ he')) ?_
      obtain ⟨e', he', hlt⟩ := hlarge
      rcases mem_cons.mp he' with rfl | htail
      · exact absurd hlt (Nat.not_lt.mpr hle)
      · exact ⟨e', htail, hlt⟩

/-! ## Inserting what a store held -/

lemma mem_values_put
    (hfree : ∀ e ∈ s.entries.values, e.triple ≤ entry.triple ∨ entry.triple ≤ e.triple → e = entry) :
    e ∈ (s.put entry).1.entries.values ↔ e ∈ s.entries.values ∨ e = entry := by
  show e ∈ (s.putEntry entry .zero false).1.entries.values ↔ _
  rw [mem_values_putEntry]
  split
  next hblocked =>
    obtain ⟨_, ⟨b, hb, rfl⟩, hle⟩ := hblocked
    have heq := hfree b hb (.inr hle)
    constructor
    · exact .inl
    · rintro (he | rfl)
      · exact he
      · exact heq ▸ hb
  · constructor
    · rintro (rfl | ⟨he, -⟩)
      · exact .inr rfl
      · exact .inl he
    · rintro (he | rfl)
      · by_cases hle : e.triple ≤ entry.triple
        · exact .inl (hfree e he (.inl hle))
        · exact .inr ⟨he, hle⟩
      · exact .inl rfl

lemma mem_values_foldl_put (hfree : ∀ e ∈ es, ∀ e' ∈ es, e.triple ≤ e'.triple → e = e')
    {l : List SignedEntry} (hl : ∀ e ∈ l, e ∈ es) (hs : ∀ e ∈ s.entries.values, e ∈ es) :
    e ∈ (l.foldl (fun s e => (s.put e).1) s).entries.values ↔ e ∈ s.entries.values ∨ e ∈ l := by
  induction l generalizing s with
  | nil => simp
  | cons x l ih =>
    have hx := hl x mem_cons_self
    have hput : ∀ e, e ∈ (s.put x).1.entries.values ↔ e ∈ s.entries.values ∨ e = x := by
      intro e
      refine mem_values_put fun e' he' hle => ?_
      rcases hle with hle | hle
      · exact hfree e' (hs e' he') x hx hle
      · exact (hfree x hx e' (hs e' he') hle).symm
    have hs' : ∀ e ∈ (s.put x).1.entries.values, e ∈ es := by
      intro e he
      rcases (hput e).mp he with he | rfl
      · exact hs e he
      · exact hx
    rw [foldl_cons, ih (fun e' he' => hl e' (mem_cons_of_mem _ he')) hs', hput,
      mem_cons, or_assoc]

lemma of_mem_values_putEntry
    (h : e ∈ (s.putEntry entry origin notify).1.entries.values) : e = entry ∨ e ∈ s.entries.values := by
  rw [mem_values_putEntry] at h
  split at h
  · exact .inr h
  · exact h.imp_right And.left

lemma Insert.of_mem_values_run (op : Insert) (h : e ∈ (op.run env s).entries.values) :
    e = op.entry ∨ e ∈ s.entries.values := by
  cases op with
  | put x => exact of_mem_values_putEntry h
  | putLocal x | putWithOrigin x origin =>
    exact of_mem_values_putEntry (entries_putWithOrigin env s x _ ▸ h)

lemma InsertRun.mem_values (h : InsertRun env s ops s')
    (he : e ∈ s'.entries.values) : e ∈ s.entries.values ∨ ∃ op ∈ ops, op.entry = e := by
  induction h with
  | nil s => exact .inl he
  | @cons s s₁ s' op ops hre _ ih =>
    rcases ih he with hmid | ⟨op', hop', rfl⟩
    · rcases op.of_mem_values_run hmid with rfl | hmem
      · exact .inr ⟨op, mem_cons_self, rfl⟩
      · -- the map of the store may be iterated in another order
        obtain ⟨m, hm, rfl⟩ := hre
        exact .inl ((hm.map Prod.snd).mem_iff.mp hmem)
    · exact .inr ⟨op', mem_cons_of_mem _ hop', rfl⟩

lemma InsertRun.eq_of_triple_le (h : InsertRun env s ops s')
    (hempty : s.entries = .empty) (he : e ∈ s'.entries.values)
    (he' : e' ∈ s'.entries.values) (hle : e.triple ≤ e'.triple) : e = e' := by
  have htriples := h.triples_of_empty hempty
  have hmem : e.triple ∈ maximals (inserted ops) := htriples ▸ ⟨e, he, rfl⟩
  have hmem' : e'.triple ∈ maximals (inserted ops) := htriples ▸ ⟨e', he', rfl⟩
  have heq := eq_of_le_of_mem_maximals hmem hmem' hle
  exact eq_of_id_eq he he' (congrArg Triple.id heq)

lemma get?_eq_of_mem_values_iff {t : MemoryStore}
    (h : ∀ e, e ∈ s.entries.values ↔ e ∈ t.entries.values) (key : Bytes) :
    s.entries.get? key = t.entries.get? key := by
  have hkeyed : ∀ {s t : MemoryStore} {e}, (e ∈ s.entries.values → e ∈ t.entries.values) →
      s.entries.get? key = some e → t.entries.get? key = some e := by
    intro s t e h hget
    obtain rfl := s.keyed key e hget
    exact mem_values_iff.mp (h (mem_values_iff.mpr hget))
  exact Option.ext fun e => ⟨hkeyed (h e).mp, hkeyed (h e).mpr⟩

lemma length_encodePostcard (e : SignedEntry) :
    e.encodePostcard.length = 227 + e.entry.id.key.length + Nat.log 128 (64 + e.entry.id.key.length) +
      Nat.log 128 e.entry.record.len.toNat + Nat.log 128 e.entry.record.timestamp.toNat := by
  simp only [SignedEntry.encodePostcard, RecordIdentifier.encodePostcard, Postcard.bytesValue,
    length_append, Vector.length_toList, length_varint, length_bytes]
  omega

lemma log_toNat_le (x : UInt64) : Nat.log 128 x.toNat ≤ 9 := by
  refine Nat.le_of_lt_succ (Nat.log_lt_of_lt_pow' (by decide) ?_)
  exact Nat.lt_of_lt_of_le x.toNat_lt (by decide)

lemma length_encodePostcard_le_iff (e : SignedEntry) :
    e.encodePostcard.length ≤ maxStoreEntrySize.toNat ↔
      e.entry.id.key.length + Nat.log 128 e.entry.record.len.toNat +
        Nat.log 128 e.entry.record.timestamp.toNat ≤ 16776986 := by
  have hmax : maxStoreEntrySize.toNat = 16777216 := by decide
  have hlen := log_toNat_le e.entry.record.len
  have hts := log_toNat_le e.entry.record.timestamp
  rw [length_encodePostcard]
  rcases Nat.lt_or_ge (64 + e.entry.id.key.length) (128 ^ 3) with hsmall | hge
  · have hlog : Nat.log 128 (64 + e.entry.id.key.length) < 3 :=
      Nat.log_lt_of_lt_pow' (by decide) hsmall
    omega
  · rcases Nat.lt_or_ge (64 + e.entry.id.key.length) (128 ^ 4) with hlt | hhuge
    · have hlog : Nat.log 128 (64 + e.entry.id.key.length) = 3 := Nat.log_eq_of_pow_le_of_lt_pow hge hlt
      omega
    · omega

/-! ## The round trip -/

lemma length_entriesLocked (s : MemoryStore) : s.entriesLocked.length = s.entries.len := by
  rw [entriesLocked, (sortEntries_perm _).length_eq, GoMap.values, length_map, GoMap.len]

lemma mem_entriesLocked : e ∈ s.entriesLocked ↔ e ∈ s.entries.values := (sortEntries_perm _).mem_iff

lemma readFrom_snapshot_eq (k : Ed25519) (t : MemoryStore)
    (hcount : s.entriesLocked.length ≤ maxStoreEntries.toNat) : t.readFrom k s.snapshot =
      let out := readEntries k s.entriesLocked.length t (s.entriesLocked.flatMap frame)
      (out.1, s.snapshot.length - out.2.1.length, out.2.2) := by
  have hheader := reads_readHeader hcount (s.entriesLocked.flatMap frame)
  rw [append_assoc] at hheader
  have htoNat : (UInt64.ofNat s.entriesLocked.length).toNat = s.entriesLocked.length :=
    UInt64.toNat_ofNat_of_lt' (Nat.lt_of_le_of_lt hcount maxStoreEntries.toNat_lt)
  rw [readFrom, snapshot, hheader]
  dsimp only
  rw [htoNat]

lemma readFrom_snapshot (t : MemoryStore) (hverify : ∀ e ∈ s.entries.values, e.verify k = .ok ())
    (hcount : s.entries.len ≤ maxStoreEntries.toNat)
    (hsize : ∀ e ∈ s.entries.values, e.encodePostcard.length ≤ maxStoreEntrySize.toNat) :
    t.readFrom k s.snapshot =
      (s.entriesLocked.foldl (fun s e => (s.put e).1) t, s.snapshot.length, none) := by
  have hloop := readEntries_frames (k := k) t [] (fun e he => hverify e (mem_entriesLocked.mp he))
    fun e he => hsize e (mem_entriesLocked.mp he)
  rw [append_nil] at hloop
  rw [← length_entriesLocked] at hcount
  rw [readFrom_snapshot_eq k t hcount, hloop]
  rfl

lemma readFrom_snapshot_of_large (t : MemoryStore)
    (hverify : ∀ e ∈ s.entries.values, e.verify k = .ok ())
    (hlarge : maxStoreEntries.toNat < s.entries.len ∨
      ∃ e ∈ s.entries.values, maxStoreEntrySize.toNat < e.encodePostcard.length) :
    (t.readFrom k s.snapshot).2.2 ≠ none := by
  rcases Nat.lt_or_ge maxStoreEntries.toNat s.entriesLocked.length with hcount | hcount
  · obtain ⟨err, left, hheader⟩ := readHeader_of_large (s.entriesLocked.flatMap frame) hcount
    rw [readFrom, snapshot, hheader]
    exact Option.some_ne_none err
  · have hentry : ∃ e ∈ s.entriesLocked, maxStoreEntrySize.toNat < e.encodePostcard.length := by
      rcases hlarge with hlen | ⟨e, he, hsize⟩
      · rw [length_entriesLocked] at hcount
        exact absurd hlen (Nat.not_lt.mpr hcount)
      · exact ⟨e, mem_entriesLocked.mpr he, hsize⟩
    have hloop := readEntries_of_large (k := k) t []
      (fun e he => hverify e (mem_entriesLocked.mp he)) hentry
    rw [append_nil] at hloop
    rwa [readFrom_snapshot_eq k t hcount]

lemma writeTo_eq_ok (h : s.writeTo w = (w', n, none)) :
    w'.written = w.written ++ s.snapshot ∧ n = s.snapshot.length := by
  unfold writeTo at h
  split at h
  next cw hrun =>
    cases h
    obtain ⟨hwritten, hn⟩ := writes_writeSnapshot s _ _ cw hrun
    exact ⟨hwritten, hn.trans (Nat.zero_add _)⟩
  · cases h

/-- **What a snapshot keeps.**  A store made by inserting entries whose signatures verify, once written,
is read back into an empty store without an error, to the last byte and with exactly its entries, if and
only if it has at most `maxStoreEntries` entries and none whose encoding exceeds `maxStoreEntrySize`. -/
theorem readFrom_writeTo_iff (k : Ed25519) {env : Env} {s₀ s t : MemoryStore} {ops : List Insert}
    {w w' : Writer} {n : ℕ} (hempty : s₀.entries = .empty) (hrun : InsertRun env s₀ ops s)
    (hverify : ∀ op ∈ ops, op.entry.verify k = .ok ()) (hwrite : s.writeTo w = (w', n, none))
    (ht : t.entries = .empty) :
    ∃ b, w'.written = w.written ++ b ∧ n = b.length ∧
      (((t.readFrom k b).2.2 = none ∧ (t.readFrom k b).2.1 = b.length ∧
          ∀ key, (t.readFrom k b).1.entries.get? key = s.entries.get? key) ↔
        s.entries.len ≤ 1000000 ∧ ∀ e ∈ s.entries.values,
          e.entry.id.key.length + Nat.log 128 e.entry.record.len.toNat +
            Nat.log 128 e.entry.record.timestamp.toNat ≤ 16776986) := by
  obtain ⟨hwritten, hn⟩ := writeTo_eq_ok hwrite
  refine ⟨s.snapshot, hwritten, hn, ?_⟩
  have hverify' : ∀ e ∈ s.entries.values, e.verify k = .ok () := by
    intro e he
    rcases hrun.mem_values he with hold | ⟨op, hop, rfl⟩
    · rw [hempty] at hold
      exact absurd hold not_mem_nil
    · exact hverify op hop
  have hmax : maxStoreEntries.toNat = 1000000 := by decide
  constructor
  · rintro ⟨hok, -, -⟩
    by_contra hlimits
    refine readFrom_snapshot_of_large t hverify' ?_ hok
    by_contra hsmall
    push Not at hsmall
    refine hlimits ⟨hsmall.1, fun e he => ?_⟩
    exact (length_encodePostcard_le_iff e).mp (hsmall.2 e he)
  · rintro ⟨hcount, hsize⟩
    have hread := readFrom_snapshot t hverify' (hcount.trans_eq hmax.symm) fun e he =>
      (length_encodePostcard_le_iff e).mpr (hsize e he)
    rw [hread]
    refine ⟨rfl, rfl, get?_eq_of_mem_values_iff fun e => ?_⟩
    -- the reader inserts by the rules that made the store, under which no entry displaces another
    have hfree : ∀ e ∈ s.entriesLocked, ∀ e' ∈ s.entriesLocked, e.triple ≤ e'.triple → e = e' :=
      fun e he e' he' => hrun.eq_of_triple_le hempty (mem_entriesLocked.mp he)
        (mem_entriesLocked.mp he')
    have hnone : ∀ e, e ∉ t.entries.values := by
      intro e he
      rw [ht] at he
      exact absurd he not_mem_nil
    rw [mem_values_foldl_put hfree (fun e he => he) fun e he => absurd he (hnone e),
      mem_entriesLocked]
    exact or_iff_right (hnone e)

def sink : Writer := ⟨fun _ p => (Fin.last p.length, none), 0, []⟩

lemma writeAll_sink (p : Bytes) (h : c.w.accept = sink.accept) :
    ∃ c', writeAll p c = .ok () c' ∧ c'.w.accept = sink.accept := by
  by_cases hp : p = []
  · rw [writeAll, dif_pos hp]
    exact ⟨c, rfl, h⟩
  · have hwrite : ∃ c', CountingWriter.write p c = .ok p.length c' ∧ c'.w.accept = sink.accept := by
      rw [CountingWriter.write, h]
      exact ⟨_, rfl, h⟩
    obtain ⟨c', hwrite, haccept⟩ := hwrite
    have hpos : p.length ≠ 0 := fun hzero => hp (length_eq_zero_iff.mp hzero)
    rw [writeAll, dif_neg hp, bind_of_ok hwrite, dif_neg hpos, drop_length, writeAll]
    exact ⟨c', rfl, haccept⟩

lemma forM_writeEntry_sink (es : List SignedEntry)
    (h : cw.w.accept = sink.accept) : ∃ cw', es.forM writeEntry cw = .ok () cw' := by
  induction es generalizing cw with
  | nil => exact ⟨cw, rfl⟩
  | cons e es ih =>
    obtain ⟨cw₁, h₁, hsink₁⟩ := writeAll_sink (varint e.encodePostcard.length) h
    obtain ⟨cw₂, h₂, hsink₂⟩ := writeAll_sink e.encodePostcard hsink₁
    obtain ⟨cw₃, h₃⟩ := ih hsink₂
    have hentry : writeEntry e cw = .ok () cw₂ := (bind_of_ok h₁ _).trans h₂
    exact ⟨cw₃, (bind_of_ok hentry _).trans h₃⟩

lemma writeTo_sink (s : MemoryStore) : (s.writeTo sink).2.2 = none := by
  obtain ⟨cw₁, h₁, hsink₁⟩ := writeAll_sink storeSnapshotMagic (c := ⟨sink, 0⟩) rfl
  obtain ⟨cw₂, h₂, hsink₂⟩ := writeAll_sink (varint s.entriesLocked.length) hsink₁
  obtain ⟨cw₃, h₃⟩ := forM_writeEntry_sink s.entriesLocked hsink₂
  have hrun : s.writeSnapshot ⟨sink, 0⟩ = .ok () cw₃ :=
    (bind_of_ok h₁ _).trans ((bind_of_ok h₂ _).trans h₃)
  rw [writeTo, hrun]

/-! ## Two stores

The entries are signed with the Ed25519 keys of the secrets `01…01` (namespace) and `02…02` (author). -/

def littleEndian (n x : ℕ) : Vector UInt8 n := Vector.ofFn fun i => UInt8.ofNat (x >>> (8 * i.val))

/-- A signature is a point and a scalar. -/
def signature (r s : ℕ) : Vector UInt8 64 := littleEndian 64 (r + s <<< 256)

def signed (author namespaceSig : Vector UInt8 64) (key : Bytes) (timestamp : UInt64) : SignedEntry :=
  ⟨⟨author, namespaceSig⟩,
    ⟨⟨littleEndian 32 0x5c6f0fb4018874f31b12941dbf0967ca725dba3c2ddb52fd95f10974dde3888a,
      littleEndian 32 0x94b3c98f5b0ff65da237eeb4918a8dcbcc7e4cc36654a3565f177da80e773981, key⟩,
      ⟨0, Vector.replicate 32 0, timestamp⟩⟩⟩

def first : SignedEntry := signed
  (signature 0x29178675f8d45c37709661410b6ad06b432460e43107339c69e4228da01fa4b6
    0x03161c7d8507084a6f72b628c9971feefcf50693bcbfc71b5b966b562b98f24a)
  (signature 0x26238e9a592af32a559a57059fa76b951af343c54b3130b8c5582d14eb988591
    0x0a7a4996231d75a7686794e1ee722248f8f027ea92f0dc8a19e7492b9b626ef7)
  [1, 2] 5

def second : SignedEntry := signed
  (signature 0x5ad1a47d0ed26524a1512a8b8512fe220791048828fed435d1be630a21adda60
    0x075cd501e3d3c344742a1b50302cd42f3a3363972c3984f0180141794803ea6f)
  (signature 0xba1bf43699f3f7b4d5fc603181209c8e32f10626f3f16b273cdc0ee1e809c307
    0x02ec7311d168cb28a2ea0afa7ef2706849458002f39349d67d7d5e4dade43f8a)
  [3] 7

/-- A key of 16 MiB. -/
def longKey : SignedEntry := signed
  (signature 0x01759286042751a76de2a8afde4e37b3d7e6464cb748e45a4e9d283932fc501a
    0x07f6171d85982053f00df301c6311be75703f5d619c39caea03db0b28076a4ff)
  (signature 0x666556ff271f109b517cc4501f296ee6501209211f4a4fc22aae1cfac7831198
    0x0eead7cd74b854c5893ec23be7d3b258cfe5c76b4236deb90d11b5b49848d223)
  (replicate (2 ^ 24) 0) 0

/-- The signatures of the entries above, each with its key and the bytes it signs. -/
def signatures : List (Bytes32 × Bytes × Vector UInt8 64) := [first, second, longKey].flatMap fun e =>
  [(e.entry.namespaceID, e.entry.encode, e.signature.namespaceSig),
    (e.entry.id.author, e.entry.encode, e.signature.author)]

/-- What Ed25519 says of these keys and signatures; nothing else verifies. -/
def signaturesOnly : Ed25519 where
  validKey key := decide (∃ x ∈ signatures, x.1 = key)
  verify key msg sig := decide ((key, msg, sig) ∈ signatures)
  valid_of_verify h := decide_eq_true ⟨_, of_decide_eq_true h, rfl⟩

lemma verify_signaturesOnly (he : e ∈ [first, second, longKey]) : e.verify signaturesOnly = .ok () := by
  have hverify : ∀ {key msg sig}, (key, msg, sig) ∈ signatures →
      signaturesOnly.verifySignature key msg sig = .ok () :=
    fun h => if_pos (decide_eq_true h)
  have hns := hverify (mem_flatMap.mpr ⟨e, he, mem_cons_self⟩)
  have hauthor := hverify (mem_flatMap.mpr ⟨e, he, mem_cons_of_mem _ mem_cons_self⟩)
  rw [SignedEntry.verify, EntrySignature.verify, hns]
  exact hauthor

/-- A store with two entries. -/
theorem readFrom_writeTo_iff_two :
    let env := Env.plain (fun _ => Vector.replicate 32 0) 0
    let ops := [Insert.putLocal first, Insert.put second]
    let s := ops.foldl (Insert.run env) new
    let out := s.writeTo sink
    out.2.2 = none ∧ s.entries.len = 2 ∧ ∃ b, out.1.written = [] ++ b ∧ out.2.1 = b.length ∧
      (((new.readFrom signaturesOnly b).2.2 = none ∧ (new.readFrom signaturesOnly b).2.1 = b.length ∧
          ∀ key, (new.readFrom signaturesOnly b).1.entries.get? key = s.entries.get? key) ↔
        s.entries.len ≤ 1000000 ∧ ∀ e ∈ s.entries.values,
          e.entry.id.key.length + Nat.log 128 e.entry.record.len.toNat +
            Nat.log 128 e.entry.record.timestamp.toNat ≤ 16776986) := by
  intro env ops s out
  have hwrite : s.writeTo sink = (out.1, out.2.1, none) :=
    Prod.ext rfl (Prod.ext rfl (writeTo_sink s))
  have hrun : InsertRun env new ops s := .foldl env new ops
  have hverify : ∀ op ∈ ops, op.entry.verify signaturesOnly = .ok () := by
    intro op hop
    refine verify_signaturesOnly ?_
    rcases mem_pair.mp hop with rfl | rfl
    · exact mem_cons_self
    · exact mem_cons_of_mem _ mem_cons_self
  exact ⟨writeTo_sink s, by decide +kernel,
    readFrom_writeTo_iff signaturesOnly rfl hrun hverify hwrite rfl⟩

lemma readFrom_put_of_large (hlarge : maxStoreEntrySize.toNat < entry.encodePostcard.length)
    (hlen : entry.encodePostcard.length < 2 ^ 64) :
    (new.put entry).2.inserted = true ∧ ((new.put entry).1.writeTo sink).2.2 = none ∧
      (new.readFrom k ((new.put entry).1.writeTo sink).1.written).2.2 = some .entryTooLarge := by
  have hok := writeTo_sink (new.put entry).1
  have hwritten : ((new.put entry).1.writeTo sink).1.written = (new.put entry).1.snapshot :=
    (writeTo_eq_ok (n := ((new.put entry).1.writeTo sink).2.1) (Prod.ext rfl (Prod.ext rfl hok))).1
  have hentries : (new.put entry).1.entriesLocked = [entry] := rfl
  have hcount : (new.put entry).1.entriesLocked.length ≤ maxStoreEntries.toNat := by
    rw [hentries, length_singleton]
    decide
  refine ⟨rfl, hok, ?_⟩
  rw [hwritten, readFrom_snapshot_eq k new hcount, hentries, flatMap_singleton,
    length_singleton, readEntries, ← append_nil (frame entry),
    readEntry_entryTooLarge [] hlarge hlen]

lemma length_encodePostcard_of_length_key (hkey : entry.entry.id.key.length = 2 ^ 24) :
    maxStoreEntrySize.toNat < entry.encodePostcard.length ∧
      entry.encodePostcard.length < 2 ^ 64 := by
  constructor
  · refine Nat.lt_of_not_le fun hle => ?_
    have hle := (length_encodePostcard_le_iff entry).mp hle
    omega
  · have hlog := Nat.log_le_self 128 (64 + entry.entry.id.key.length)
    have hlen := log_toNat_le entry.entry.record.len
    have hts := log_toNat_le entry.entry.record.timestamp
    rw [length_encodePostcard]
    omega

theorem readFrom_refuses_long_key :
    longKey.verify signaturesOnly = .ok () ∧ (new.put longKey).2.inserted = true ∧
      ((new.put longKey).1.writeTo sink).2.2 = none ∧
      (new.readFrom signaturesOnly ((new.put longKey).1.writeTo sink).1.written).2.2 =
        some .entryTooLarge :=
  have hkey : longKey.entry.id.key.length = 2 ^ 24 := length_replicate
  have hlength := length_encodePostcard_of_length_key hkey
  ⟨verify_signaturesOnly (by simp), readFrom_put_of_large hlength.1 hlength.2⟩

end MemoryStore

end Iroh.Docs
