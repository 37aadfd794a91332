import Iroh.Docs.Store

/-!
# Heads of authors

Reference: `docs/heads.go` (`authorHeads`, `syncHeads`).

Two peers compare the latest timestamp of each author, and the fingerprints of the entries that have it,
before they reconcile.  Both loops read the zero value of a map for an author they have not seen.  An
entry with timestamp zero is no later than that: `authorHeads` leaves its author out, and `syncHeads`
enters a head without an author.  A later entry of the author makes up for both.
-/

namespace Iroh.Docs

open List GoMap

structure AuthorHead where
  timestamp : UInt64
  author : AuthorID
deriving DecidableEq

structure SyncHead where
  timestamp : UInt64
  author : AuthorID
  hash : Hash
deriving DecidableEq

def SyncHead.zero : SyncHead := ⟨0, Vector.replicate 32 0, Vector.replicate 32 0⟩

def AuthorHead.compare (a b : AuthorHead) : Ordering :=
  if a.timestamp > b.timestamp then .lt
  else if a.timestamp < b.timestamp then .gt
  else bytesCompare a.author.toList b.author.toList

def SyncHead.compare (a b : SyncHead) : Ordering :=
  match AuthorHead.compare ⟨a.timestamp, a.author⟩ ⟨b.timestamp, b.author⟩ with
  | .eq => bytesCompare a.hash.toList b.hash.toList
  | c => c

def SignedEntry.Of (N : NamespaceID) (author : AuthorID) (e : SignedEntry) : Prop :=
  e.entry.namespaceID = N ∧ e.entry.id.author = author

instance (N : NamespaceID) (author : AuthorID) (e : SignedEntry) : Decidable (e.Of N author) :=
  inferInstanceAs (Decidable (_ ∧ _))

namespace MemoryStore

def noteAuthor (N : NamespaceID) (latest : GoMap AuthorID UInt64) (entry : SignedEntry) :
    GoMap AuthorID UInt64 :=
  if entry.entry.namespaceID ≠ N then latest
  else
    let author := entry.entry.id.author
    if entry.entry.timestamp > (latest.get? author).getD 0 then latest.set author entry.entry.timestamp
    else latest

def authorHeads (s : MemoryStore) (N : NamespaceID) : List AuthorHead :=
  let latest := s.entries.values.foldl (noteAuthor N) .empty
  (latest.toList.map fun e => ⟨e.2, e.1⟩).mergeSort fun a b => (a.compare b).isLE

def noteHead (blake3 : Blake3) (N : NamespaceID) (latest : GoMap AuthorID SyncHead)
    (entry : SignedEntry) : GoMap AuthorID SyncHead :=
  if entry.entry.namespaceID ≠ N then latest
  else
    let author := entry.entry.id.author
    let ts := entry.entry.timestamp
    let head := (latest.get? author).getD .zero
    if ts > head.timestamp then latest.set author ⟨ts, author, entry.fingerprint blake3⟩
    else if ts = head.timestamp then
      latest.set author { head with hash := Fingerprint.xor head.hash (entry.fingerprint blake3) }
    else latest

def syncHeads (blake3 : Blake3) (s : MemoryStore) (N : NamespaceID) : List SyncHead :=
  let latest := s.entries.values.foldl (noteHead blake3 N) .empty
  latest.values.mergeSort fun a b => (a.compare b).isLE

def entriesOf (s : MemoryStore) (N : NamespaceID) (author : AuthorID) : List SignedEntry :=
  s.entries.values.filter (·.Of N author)

def Latest (es : List SignedEntry) (ts : UInt64) : Prop :=
  (∃ e ∈ es, e.entry.timestamp = ts) ∧ ∀ e ∈ es, e.entry.timestamp ≤ ts

def hashAt (blake3 : Blake3) (ts : UInt64) (es : List SignedEntry) : Hash :=
  (es.filter (·.entry.timestamp = ts)).foldl (fun h e => Fingerprint.xor h (e.fingerprint blake3))
    (Vector.replicate 32 0)

/-- One head for each author with entries, with its latest timestamp. -/
structure OneEach (s : MemoryStore) (N : NamespaceID) (heads : List AuthorHead) : Prop where
  once : (heads.map AuthorHead.author).Nodup
  authors : ∀ a, a ∈ heads.map AuthorHead.author ↔ s.entriesOf N a ≠ []
  latest : ∀ h ∈ heads, Latest (s.entriesOf N h.author) h.timestamp

/-- Both lists of heads are exact. -/
structure HeadsExact (blake3 : Blake3) (s : MemoryStore) (N : NamespaceID) : Prop where
  authors : s.OneEach N (s.authorHeads N)
  sync : s.OneEach N ((s.syncHeads blake3 N).map fun h => ⟨h.timestamp, h.author⟩)
  hashes : ∀ h ∈ s.syncHeads blake3 N, h.hash = hashAt blake3 h.timestamp (s.entriesOf N h.author)

/-! ## The loops -/

lemma get?_foldl_filter {κ α σ : Type} [DecidableEq κ] {f : GoMap κ α → σ → GoMap κ α} {k : κ}
    {p : σ → Bool} {step : Option α → σ → Option α}
    (hf : ∀ m e, (f m e).get? k = if p e then step (m.get? k) e else m.get? k) (l : List σ)
    (m : GoMap κ α) : (l.foldl f m).get? k = (l.filter p).foldl step (m.get? k) := by
  induction l generalizing m with
  | nil => rfl
  | cons e l ih =>
    rw [foldl_cons, ih, hf, filter_cons]
    split <;> rfl

def authorStep (o : Option UInt64) (e : SignedEntry) : Option UInt64 :=
  if e.entry.timestamp > o.getD 0 then some e.entry.timestamp else o

def headStep (blake3 : Blake3) (a : AuthorID) (o : Option SyncHead) (e : SignedEntry) :
    Option SyncHead :=
  let head := o.getD .zero
  if e.entry.timestamp > head.timestamp then some ⟨e.entry.timestamp, a, e.fingerprint blake3⟩
  else if e.entry.timestamp = head.timestamp then
    some { head with hash := Fingerprint.xor head.hash (e.fingerprint blake3) }
  else o

lemma get?_noteAuthor (s : MemoryStore) (N : NamespaceID) (a : AuthorID) :
    (s.entries.values.foldl (noteAuthor N) .empty).get? a =
      (s.entriesOf N a).foldl authorStep none := by
  refine get?_foldl_filter (fun m e => ?_) _ _
  by_cases hns : e.entry.namespaceID = N
  · by_cases ha : e.entry.id.author = a
    · simp only [noteAuthor, authorStep, SignedEntry.Of, hns, ha, ne_eq, not_true_eq_false, if_false,
        and_self, decide_true, if_true]
      split <;> simp
    · simp only [noteAuthor, SignedEntry.Of, hns, ha, ne_eq, not_true_eq_false, if_false, and_false,
        decide_false, Bool.false_eq_true]
      split <;> simp [Ne.symm ha]
  · simp [noteAuthor, SignedEntry.Of, hns]

lemma get?_noteHead (blake3 : Blake3) (s : MemoryStore) (N : NamespaceID) (a : AuthorID) :
    (s.entries.values.foldl (noteHead blake3 N) .empty).get? a =
      (s.entriesOf N a).foldl (headStep blake3 a) none := by
  refine get?_foldl_filter (fun m e => ?_) _ _
  by_cases hns : e.entry.namespaceID = N
  · by_cases ha : e.entry.id.author = a
    · simp only [noteHead, headStep, SignedEntry.Of, hns, ha, ne_eq, not_true_eq_false, if_false,
        and_self, decide_true, if_true]
      split
      · simp
      · split <;> simp
    · simp only [noteHead, SignedEntry.Of, hns, ha, ne_eq, not_true_eq_false, if_false, and_false,
        decide_false, Bool.false_eq_true]
      split
      · simp [Ne.symm ha]
      · split <;> simp [Ne.symm ha]
  · simp [noteHead, SignedEntry.Of, hns]

/-- The timestamp is the latest of the entries seen. -/
structure AuthorSeen (es : List SignedEntry) (o : Option UInt64) : Prop where
  le : ∀ e ∈ es, e.entry.timestamp ≤ o.getD 0
  mem : ∀ ts ∈ o, ts ≠ 0 ∧ ∃ e ∈ es, e.entry.timestamp = ts

lemma authorSeen_foldl (es : List SignedEntry) : AuthorSeen es (es.foldl authorStep none) := by
  induction es using reverseRecOn with
  | nil => exact ⟨by simp, by simp⟩
  | append_singleton es e ih =>
    rw [foldl_append, foldl_cons, foldl_nil, authorStep]
    split <;> rename_i hts
    · refine ⟨fun e' he' => ?_, ?_⟩
      · obtain he' | rfl := mem_append.1 he' |>.imp_right mem_singleton.1
        · exact (ih.le e' he').trans hts.le
        · exact le_rfl
      · rintro _ ⟨⟩
        exact ⟨(UInt64.zero_le.trans_lt hts).ne', e, by simp, rfl⟩
    · refine ⟨fun e' he' => ?_, fun ts h => ?_⟩
      · obtain he' | rfl := mem_append.1 he' |>.imp_right mem_singleton.1
        · exact ih.le e' he'
        · exact not_lt.1 hts
      · obtain ⟨h0, e', he', rfl⟩ := ih.mem ts h
        exact ⟨h0, e', mem_append_left _ he', rfl⟩

/-- The head is that of the entries seen. -/
structure HeadSeen (blake3 : Blake3) (a : AuthorID) (es : List SignedEntry) (o : Option SyncHead) :
    Prop where
  le : ∀ e ∈ es, e.entry.timestamp ≤ (o.getD .zero).timestamp
  hash : (o.getD .zero).hash = hashAt blake3 (o.getD .zero).timestamp es
  mem : ∀ h ∈ o, (h.timestamp ≠ 0 → h.author = a) ∧ ∃ e ∈ es, e.entry.timestamp = h.timestamp
  seen : es ≠ [] → o ≠ none

lemma hashAt_append (blake3 : Blake3) (ts : UInt64) (es : List SignedEntry) (e : SignedEntry) :
    hashAt blake3 ts (es ++ [e]) =
      if e.entry.timestamp = ts then Fingerprint.xor (hashAt blake3 ts es) (e.fingerprint blake3)
      else hashAt blake3 ts es := by
  simp only [hashAt, filter_append, filter_cons, filter_nil, decide_eq_true_eq, foldl_append]
  split <;> rfl

lemma hashAt_of_lt
    (h : ∀ e ∈ es, e.entry.timestamp < ts) : hashAt blake3 ts es = Vector.replicate 32 0 := by
  have hnil : es.filter (·.entry.timestamp = ts) = [] :=
    filter_eq_nil_iff.2 fun e he => by simpa using (h e he).ne
  rw [hashAt, hnil, foldl_nil]

lemma xor_zero_left (fp : Fingerprint) : Fingerprint.xor (Vector.replicate 32 0) fp = fp := by
  ext i hi
  simp [Fingerprint.xor]

lemma headSeen_foldl (blake3 : Blake3) (a : AuthorID) (es : List SignedEntry) :
    HeadSeen blake3 a es (es.foldl (headStep blake3 a) none) := by
  induction es using reverseRecOn with
  | nil => exact ⟨by simp, rfl, by simp, by simp⟩
  | append_singleton es e ih =>
    rw [foldl_append, foldl_cons, foldl_nil, headStep]
    have hle {ts} (hes : ∀ e' ∈ es, e'.entry.timestamp ≤ ts) (he : e.entry.timestamp ≤ ts) :
        ∀ e' ∈ es ++ [e], e'.entry.timestamp ≤ ts := by
      simpa [or_imp, forall_and] using ⟨hes, he⟩
    split <;> rename_i hts
    · refine ⟨hle (fun e' he' => (ih.le e' he').trans hts.le) le_rfl, ?_, ?_, by simp⟩
      · rw [Option.getD_some, hashAt_append, if_pos rfl,
          hashAt_of_lt fun e' he' => (ih.le e' he').trans_lt hts, xor_zero_left]
      · rintro _ ⟨⟩
        exact ⟨fun _ => rfl, e, by simp, rfl⟩
    · split <;> rename_i heq
      · refine ⟨hle ih.le heq.le, ?_, ?_, by simp⟩
        · rw [Option.getD_some, hashAt_append, if_pos heq, ih.hash]
        · rintro _ ⟨⟩
          refine ⟨fun h0 => ?_, e, by simp, heq⟩
          -- A head with a timestamp is not the zero value: an entry has set its author.
          cases ho : es.foldl (headStep blake3 a) none with
          | none => exact absurd rfl (ho ▸ h0)
          | some h =>
            rw [ho] at h0
            exact (ih.mem h ho).1 h0
      · refine ⟨hle ih.le (not_lt.1 hts), ?_, fun h ho => ?_, fun _ ho => ?_⟩
        · rw [hashAt_append, if_neg heq, ih.hash]
        · obtain ⟨ha, e', he', hts'⟩ := ih.mem h ho
          exact ⟨ha, e', mem_append_left _ he', hts'⟩
        · rw [ho] at hts heq
          exact heq (le_antisymm (not_lt.1 hts) UInt64.zero_le)

/-! ## The heads -/

lemma oneEach_of_map {α : Type} {s : MemoryStore} {m : GoMap AuthorID α}
    {f : AuthorID × α → AuthorHead} {heads : List AuthorHead} (hperm : heads.Perm (m.toList.map f))
    (hf : ∀ e ∈ m.toList, (f e).author = e.1 ∧ Latest (s.entriesOf N e.1) (f e).timestamp)
    (hall : ∀ a, s.entriesOf N a ≠ [] → m.get? a ≠ none) : s.OneEach N heads := by
  have hkeys : (heads.map AuthorHead.author).Perm m.keys := by
    refine (hperm.map _).trans (.of_eq ?_)
    rw [map_map]
    exact map_congr_left fun e he => (hf e he).1
  refine ⟨hkeys.nodup_iff.2 m.nodup, fun a => ?_, fun h hh => ?_⟩
  · rw [hkeys.mem_iff]
    refine ⟨fun ha => ?_, fun ha => by simpa [get?_eq_none] using hall a ha⟩
    obtain ⟨v, hv⟩ := mem_keys_iff.1 ha
    obtain ⟨⟨e, he, -⟩, -⟩ := (hf (a, v) (get?_eq_some.1 hv)).2
    exact ne_nil_of_mem he
  · obtain ⟨e, he, rfl⟩ := mem_map.1 (hperm.mem_iff.1 hh)
    rw [(hf e he).1]
    exact (hf e he).2

/-- Every author of the namespace has an entry there that is later than timestamp zero. -/
def Dated (s : MemoryStore) (N : NamespaceID) : Prop :=
  ∀ a, s.entriesOf N a ≠ [] → ∃ e ∈ s.entriesOf N a, e.entry.timestamp ≠ 0

variable {s : MemoryStore} {N : NamespaceID}

lemma oneEach_authorHeads (h : s.Dated N) : s.OneEach N (s.authorHeads N) := by
  have hseen a := get?_noteAuthor s N a ▸ authorSeen_foldl (s.entriesOf N a)
  refine oneEach_of_map (mergeSort_perm _ _) (fun e he => ⟨rfl, ?_⟩) fun a ha hnone => ?_
  · have hget := get?_eq_some.2 he
    exact ⟨((hseen e.1).mem e.2 hget).2, fun e' he' => by simpa [hget] using (hseen e.1).le e' he'⟩
  · obtain ⟨e, he, h0⟩ := h a ha
    exact h0 (le_antisymm (by simpa [hnone] using (hseen a).le e he) UInt64.zero_le)

lemma of_mem_toList_noteHead (blake3 : Blake3) (h : s.Dated N)
    (he : e ∈ (s.entries.values.foldl (noteHead blake3 N) .empty).toList) :
    e.2.author = e.1 ∧ Latest (s.entriesOf N e.1) e.2.timestamp ∧
      e.2.hash = hashAt blake3 e.2.timestamp (s.entriesOf N e.1) := by
  have hseen := get?_noteHead blake3 s N e.1 ▸ headSeen_foldl blake3 e.1 (s.entriesOf N e.1)
  rw [get?_eq_some.2 he] at hseen
  obtain ⟨ha, e', he', hts⟩ := hseen.mem e.2 rfl
  refine ⟨ha fun h0 => ?_, ⟨⟨e', he', hts⟩, hseen.le⟩, hseen.hash⟩
  obtain ⟨e₀, he₀, h₀⟩ := h e.1 (ne_nil_of_mem he')
  exact h₀ (le_antisymm ((hseen.le e₀ he₀).trans h0.le) UInt64.zero_le)

/-- The heads are exact just when no author of the namespace has only entries of timestamp zero. -/
theorem headsExact_iff (blake3 : Blake3) (s : MemoryStore) (N : NamespaceID) :
    s.HeadsExact blake3 N ↔ s.Dated N := by
  constructor
  · intro h a ha
    obtain ⟨hd, hhd, rfl⟩ := mem_map.1 ((h.authors.authors a).2 ha)
    obtain ⟨⟨e, he, hts⟩, -⟩ := h.authors.latest hd hhd
    obtain ⟨p, hp, rfl⟩ := mem_map.1 ((mergeSort_perm _ _).mem_iff.1 hhd)
    have hseen := get?_noteAuthor s N p.1 ▸ authorSeen_foldl (s.entriesOf N p.1)
    exact ⟨e, he, hts ▸ (hseen.mem p.2 (get?_eq_some.2 hp)).1⟩
  · intro h
    refine ⟨oneEach_authorHeads h, ?_, fun hd hhd => ?_⟩
    · refine oneEach_of_map (f := fun e : AuthorID × SyncHead => ⟨e.2.timestamp, e.2.author⟩)
        (((mergeSort_perm _ _).map _).trans (.of_eq (map_map ..))) (fun e he => ?_)
        fun a ha => ?_
      · obtain ⟨hauthor, hlatest, -⟩ := of_mem_toList_noteHead blake3 h he
        exact ⟨hauthor, hlatest⟩
      · rw [get?_noteHead]
        exact (headSeen_foldl blake3 a _).seen ha
    · obtain ⟨e, he, rfl⟩ := mem_map.1 ((mergeSort_perm _ _).mem_iff.1 hhd)
      obtain ⟨hauthor, -, hhash⟩ := of_mem_toList_noteHead blake3 h he
      rw [hauthor]
      exact hhash

/-- A store with one entry, of timestamp zero: its author has no head. -/
theorem not_headsExact_put_undated :
    ¬ (new.put (.unsigned (Vector.replicate 32 0) [1] 0)).1.HeadsExact (fun _ => blake3Empty)
      (Vector.replicate 32 0) := by
  intro h
  obtain ⟨hd, hhd, -⟩ := mem_map.1 ((h.authors.authors (Vector.replicate 32 0)).2 (by decide))
  obtain ⟨e, he, -⟩ := mem_map.1 ((mergeSort_perm _ _).mem_iff.1 hhd)
  exact ne_nil_of_mem he (by decide)

end MemoryStore

end Iroh.Docs
