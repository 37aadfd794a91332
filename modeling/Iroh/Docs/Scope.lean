import Iroh.Docs.Inserts

/-!
# What a scope lets the code read

Every read of the reconciliation code goes through `scopeRange`: the entries of the scope in a range, sorted.
Its result is the strictly sorted list of its members (`mem_scopeRange`, `scopeRange_sorted`), so it does not
depend on the map's iteration order nor on anything outside the scope (`scopeRange_congr`).
-/

namespace Iroh.Docs

open List

lemma sortEntries_perm (entries : List SignedEntry) : (sortEntries entries).Perm entries :=
  perm_insertionSort ..

instance : IsTrans SignedEntry fun a b => (a.compare b).isLE = true where
  trans a b c hab hbc := by
    simp only [SignedEntry.compare, Entry.compare_isLE_iff] at hab hbc ⊢
    exact hab.trans hbc

instance : Std.Total fun a b : SignedEntry => (a.compare b).isLE = true where
  total a b := by
    simp only [SignedEntry.compare, Entry.compare_isLE_iff]
    exact le_total _ _

lemma sortEntries_sorted (entries : List SignedEntry) : (sortEntries entries).Pairwise fun a b =>
      toLex (a.entry.id, a.entry.record.stamp) ≤ toLex (b.entry.id, b.entry.record.stamp) := by
  have hsorted : (sortEntries entries).Pairwise fun a b => (a.compare b).isLE = true :=
    pairwise_insertionSort _ entries
  exact hsorted.imp fun hab => Entry.compare_isLE_iff.mp hab

namespace MemoryStore

/-! ## One range -/

variable {s : MemoryStore} {sc : NamespaceScope} {e : SignedEntry} {env : Env} {item : RangeItem}
  {message : Message}

lemma mem_scopeRange :
    e ∈ s.scopeRange sc r ↔ e ∈ s.entries.values ∧ sc.contains e ∧ r.contains e.entry.id := by
  simp [scopeRange, (sortEntries_perm _).mem_iff]

lemma values_nodup (s : MemoryStore) : s.entries.values.Nodup := by
  have hkeys : s.entries.toList.map Prod.fst = s.entries.values.map fun e => e.entry.id.bytes := by
    rw [GoMap.values, map_map]
    refine map_congr_left fun ke hke => ?_
    exact s.keyed ke.1 ke.2 (GoMap.get?_eq_some.mpr hke)
  have hnodup := s.entries.nodup
  rw [hkeys] at hnodup
  exact hnodup.of_map _

lemma scopeRange_sorted (s : MemoryStore) (sc : NamespaceScope) (r : Range) :
    (s.scopeRange sc r).Pairwise fun a b => a.entry.id < b.entry.id := by
  have hnodup : (s.scopeRange sc r).Nodup :=
    (sortEntries_perm _).nodup_iff.mpr (s.values_nodup.filter _)
  have hsorted := sortEntries_sorted
    (s.entries.values.filter fun e => sc.contains e && r.contains e.entry.id)
  refine (hsorted.and hnodup).imp_of_mem ?_
  rintro a b ha hb ⟨hle, hne⟩
  rcases Prod.Lex.toLex_le_toLex.mp hle with hlt | ⟨heq, -⟩
  · exact hlt
  · exact absurd (eq_of_id_eq (mem_scopeRange.mp ha).1 (mem_scopeRange.mp hb).1 heq) hne

lemma eq_of_sorted_of_mem_iff {l l' : List SignedEntry}
    (hl : l.Pairwise fun a b => a.entry.id < b.entry.id)
    (hl' : l'.Pairwise fun a b => a.entry.id < b.entry.id) (h : ∀ e, e ∈ l ↔ e ∈ l') : l = l' := by
  exact hl.eq_of_mem_iff hl' h

lemma scopeRange_all (s : MemoryStore) (sc : NamespaceScope) (id id' : RecordIdentifier) :
    s.scopeRange sc ⟨id, id⟩ = s.scopeRange sc ⟨id', id'⟩ := by
  have hall : ∀ i e, (Range.mk i i).contains e := fun i e => Range.contains_iff.mpr (Or.inl rfl)
  simp [scopeRange, hall]

/-! ## Answering one range item -/

lemma peerHasNewerValue_iff : peerHasNewerValue values e ↔ ∃ v ∈ values, v.entry.entry.id = e.entry.id ∧
        e.entry.record.stamp ≤ v.entry.entry.record.stamp := by
  simp [peerHasNewerValue]

lemma mem_itemDiff (h : v ∈ itemDiff env s sc item) :
    v.entry ∈ s.scopeRange sc item.range ∧ item.haveLocal = false := by
  unfold itemDiff at h
  split at h
  · simp at h
  next hlocal =>
    obtain ⟨e, he, rfl⟩ := mem_map.mp h
    exact ⟨mem_of_mem_filter he, by simpa using hlocal⟩

lemma exists_mem_itemDiff (env : Env) (he : e ∈ s.scopeRange sc item.range)
    (hlocal : item.haveLocal = false) (hnewer : ¬ peerHasNewerValue item.values e) :
    ∃ v ∈ itemDiff env s sc item, v.entry = e := by
  refine ⟨⟨e, env.status e⟩, ?_, rfl⟩
  rw [itemDiff, hlocal]
  refine mem_map.mpr ⟨e, mem_filter.mpr ⟨he, ?_⟩, rfl⟩
  simpa using hnewer

lemma mem_itemAnswer : part ∈ itemAnswer env s sc item ↔ itemDiff env s sc item ≠ [] ∧
        part = .rangeItem ⟨item.range, itemDiff env s sc item, true⟩ := by
  unfold itemAnswer
  dsimp only
  split <;> simp_all

lemma processItems_cons_ok {items : List RangeItem}
    (h : (processItems env sc p (item :: items)).2 = .ok parts) :
    (putValues env sc p item.values).2 = none ∧ (processItems env sc p (item :: items)).1 =
        (processItems env sc (putValues env sc p item.values).1 items).1 ∧
      ∃ rest, (processItems env sc (putValues env sc p item.values).1 items).2 = .ok rest ∧
        parts = itemAnswer env p.store sc item ++ rest := by
  rw [processItems] at h ⊢
  split at h
  · simp at h
  next herr =>
    rw [herr]
    refine ⟨rfl, rfl, ?_⟩
    rcases hrest : (processItems env sc (putValues env sc p item.values).1 items).2 with err | out
    · simp [hrest, Except.map] at h
    · simp only [hrest, Except.map, Except.ok.injEq] at h
      exact ⟨out, rfl, h.symm⟩

/-! ## A whole message -/

lemma mem_items : item ∈ items message ↔ .rangeItem item ∈ message.parts := by
  simp only [items, mem_filterMap]
  constructor
  · rintro ⟨part, hpart, heq⟩
    cases part <;> simp_all
  · intro h
    exact ⟨_, h, rfl⟩

lemma mem_fingerprints : remote ∈ fingerprints message ↔ .rangeFingerprint remote ∈ message.parts := by
  simp only [fingerprints, mem_filterMap]
  constructor
  · rintro ⟨part, hpart, heq⟩
    cases part <;> simp_all
  · intro h
    exact ⟨_, h, rfl⟩

lemma values_eq_flatMap_items (message : Message) :
    message.values = (items message).flatMap RangeItem.values := by
  obtain ⟨parts⟩ := message
  simp only [Message.values, items]
  induction parts with
  | nil => rfl
  | cons part parts ih => cases part <;> simp [MessagePart.values, ih]

lemma replyParts_ok (h : (s.replyParts env sc config message).2 = .ok out) :
    (s.replyParts env sc config message).1 = (processItems env sc ⟨s, 0, []⟩ (items message)).1 ∧
      ∃ answers, (processItems env sc ⟨s, 0, []⟩ (items message)).2 = .ok answers ∧
        out = answers ++ (fingerprints message).flatMap (answerFingerprint env
          (processItems env sc ⟨s, 0, []⟩ (items message)).1.store sc config.withDefaults) := by
  unfold replyParts at h ⊢
  split at h
  · simp at h
  · refine ⟨rfl, ?_⟩
    rcases hitems : (processItems env sc ⟨s, 0, []⟩ (items message)).2 with err | answers
    · simp [hitems, Except.map] at h
    · simp only [hitems, Except.map, Except.ok.injEq] at h
      exact ⟨answers, rfl, h.symm⟩

/-! ## Stores with equal views -/

def SameIn (sc : NamespaceScope) (s s' : MemoryStore) : Prop :=
  ∀ e, sc.contains e → (e ∈ s.entries.values ↔ e ∈ s'.entries.values)

section

variable {sc : NamespaceScope} {s s' : MemoryStore} (h : SameIn sc s s')
include h

lemma scopeRange_congr (r : Range) : s.scopeRange sc r = s'.scopeRange sc r := by
  refine eq_of_sorted_of_mem_iff (s.scopeRange_sorted sc r) (s'.scopeRange_sorted sc r) ?_
  intro e
  rw [mem_scopeRange, mem_scopeRange]
  constructor
  · rintro ⟨hmem, hsc, hr⟩
    exact ⟨(h e hsc).mp hmem, hsc, hr⟩
  · rintro ⟨hmem, hsc, hr⟩
    exact ⟨(h e hsc).mpr hmem, hsc, hr⟩

lemma fingerprintPart_congr (blake3 : Blake3) :
    s.fingerprintPart blake3 sc = s'.fingerprintPart blake3 sc := by
  funext r
  simp [fingerprintPart, scopeFingerprint, scopeRange_congr h]

lemma splitRange_congr (r : Range) (splitFactor : ℤ) :
    s.splitRange sc r splitFactor = s'.splitRange sc r splitFactor := by
  simp [splitRange, scopeRange_congr h]

lemma itemAnswer_congr (env : Env) (item : RangeItem) :
    itemAnswer env s sc item = itemAnswer env s' sc item := by
  have hdiff : itemDiff env s sc item = itemDiff env s' sc item := by
    simp [itemDiff, scopeRange_congr h]
  rw [itemAnswer, itemAnswer, hdiff]

lemma answerFingerprint_congr (env : Env) (config : SyncConfig) :
    answerFingerprint env s sc config = answerFingerprint env s' sc config := by
  funext remote
  simp [answerFingerprint, scopeFingerprint, scopeRange_congr h, splitRange_congr h,
    fingerprintPart_congr h]

lemma boundedMessage_congr (blake3 : Blake3) (parts : List MessagePart) :
    s.boundedMessage blake3 sc parts = s'.boundedMessage blake3 sc parts := by
  have hsplit : s.splitOversized blake3 sc = s'.splitOversized blake3 sc := by
    funext part
    cases part <;> simp [splitOversized, splitRange_congr h, fingerprintPart_congr h]
  have hfit : ∀ (parts : List MessagePart) (size : ℕ),
      s.fitParts blake3 sc size parts = s'.fitParts blake3 sc size parts := by
    intro parts
    induction parts with
    | nil => intro size; rfl
    | cons part rest ih =>
      intro size
      cases part <;> simp [fitParts, fitPart, fingerprintPart_congr h, ih]
  simp [boundedMessage, hsplit, hfit]

end

end MemoryStore

end Iroh.Docs
