import Iroh.Common.Maximal
import Iroh.Docs.Store

/-!
# What a sequence of inserts leaves in the store

`Iroh.Common.Maximal` says what the store is for: of all entries it was given, it keeps those that no other
shadows.  `triples_putEntry` connects `putEntry` to it, and `InsertRun.triples_eq` carries the connection over
any sequence of inserts, made by any of the three insert functions and with the map iterated in any order.
-/

namespace Iroh.Docs

open GoMap

namespace MemoryStore

def triples (s : MemoryStore) : Set Triple := {t | ∃ e ∈ s.entries.values, e.triple = t}

variable {s s' : MemoryStore} {e : SignedEntry}

lemma mem_triples : t ∈ s.triples ↔ ∃ e ∈ s.entries.values, e.triple = t := Iff.rfl

lemma mem_values_iff : e ∈ s.entries.values ↔ s.entries.get? e.entry.id.bytes = some e := by
  constructor
  · intro h
    obtain ⟨⟨k, e'⟩, hmem, rfl⟩ := List.mem_map.mp h
    have hget : s.entries.get? k = some e' := get?_eq_some.mpr hmem
    exact (s.keyed k e' hget) ▸ hget
  · intro h
    exact List.mem_map.mpr ⟨_, get?_eq_some.mp h, rfl⟩

lemma eq_of_id_eq (he : e ∈ s.entries.values) (he' : e' ∈ s.entries.values)
    (hid : e.entry.id = e'.entry.id) : e = e' := by
  rw [mem_values_iff] at he he'
  rw [hid, he'] at he
  exact (Option.some.inj he).symm

lemma triples_finite (s : MemoryStore) : s.triples.Finite :=
  (s.entries.values.finite_toSet.image SignedEntry.triple).subset fun _ ⟨e, he, h⟩ => ⟨e, he, h⟩

/-! ## One insert -/

lemma hasEntryPrefix_iff {id pre : RecordIdentifier} :
    hasEntryPrefix id pre ↔ id.namespaceID = pre.namespaceID ∧ id.author = pre.author ∧
      pre.key <+: id.key := by
  simp [hasEntryPrefix, and_assoc]

lemma blocks_iff {entry existing : SignedEntry} :
    blocks entry existing ↔ entry.triple ≤ existing.triple := by
  rw [← SignedEntry.shadows_iff]
  simp only [blocks, Bool.and_eq_true, hasEntryPrefix_iff, SignedEntry.Shadows,
    Record.compare_isLE_iff, Record.compare_isGE_iff]
  tauto

lemma evicts_iff {entry existing : SignedEntry} :
    evicts entry existing ↔ existing.triple ≤ entry.triple := by
  rw [← SignedEntry.shadows_iff]
  simp only [evicts, Bool.and_eq_true, hasEntryPrefix_iff, SignedEntry.Shadows]
  tauto

lemma mem_values_insertEntry (hfree : ∀ e ∈ s.entries.values, ¬ entry.triple ≤ e.triple) :
    e ∈ (s.insertEntry entry origin notify).entries.values ↔
      e = entry ∨ (e ∈ s.entries.values ∧ ¬ e.triple ≤ entry.triple) := by
  have hslot : ∀ e ∈ s.entries.values, e.entry.id = entry.entry.id → e.triple ≤ entry.triple := by
    intro e he hid
    rcases le_total e.triple.stamp entry.triple.stamp with h | h
    · exact Triple.le_of_id_eq hid h
    · exact absurd (Triple.le_of_id_eq hid.symm h) (hfree e he)
  rw [mem_values_iff]
  simp only [insertEntry, get?_set, get?_rangeDelete]
  split
  next hbytes =>
    have hid := RecordIdentifier.bytes_injective hbytes
    constructor
    · intro h
      exact Or.inl (Option.some.inj h).symm
    · rintro (rfl | ⟨he, hle⟩)
      · rfl
      · exact absurd (hslot e he hid) hle
  next hbytes =>
    rw [Option.filter_eq_some_iff, ← mem_values_iff, Bool.not_eq_true', ← Bool.not_eq_true, evicts_iff]
    constructor
    · exact Or.inr
    · rintro (rfl | h)
      · exact absurd rfl hbytes
      · exact h

lemma any_blocks_iff : s.entries.values.any (blocks entry) ↔ ∃ t ∈ s.triples, entry.triple ≤ t := by
  simp only [List.any_eq_true, blocks_iff]
  constructor
  · rintro ⟨e, he, h⟩
    exact ⟨_, ⟨e, he, rfl⟩, h⟩
  · rintro ⟨_, ⟨e, he, rfl⟩, h⟩
    exact ⟨e, he, h⟩

open Classical in
lemma mem_values_putEntry : e ∈ (s.putEntry entry origin notify).1.entries.values ↔
      if ∃ t ∈ s.triples, entry.triple ≤ t then e ∈ s.entries.values
      else e = entry ∨ (e ∈ s.entries.values ∧ ¬ e.triple ≤ entry.triple) := by
  unfold putEntry
  split
  next h => rw [if_pos (any_blocks_iff.mp h)]
  next h =>
    rw [if_neg (mt any_blocks_iff.mpr h)]
    have hfree : ∀ e ∈ s.entries.values, ¬ entry.triple ≤ e.triple :=
      fun e he hle => h (any_blocks_iff.mpr ⟨_, ⟨e, he, rfl⟩, hle⟩)
    exact mem_values_insertEntry hfree

theorem triples_putEntry (s : MemoryStore) (entry : SignedEntry) (origin : InsertOrigin)
    (notify : Bool) :
    (s.putEntry entry origin notify).1.triples = insertMax s.triples entry.triple := by
  ext t
  simp only [mem_triples, mem_values_putEntry, insertMax]
  split
  · rfl
  · constructor
    · rintro ⟨e, rfl | ⟨he, hle⟩, rfl⟩
      · exact Or.inl rfl
      · exact Or.inr ⟨⟨e, he, rfl⟩, hle⟩
    · rintro (rfl | ⟨⟨e, he, rfl⟩, hle⟩)
      · exact ⟨entry, Or.inl rfl, rfl⟩
      · exact ⟨e, Or.inr ⟨he, hle⟩, rfl⟩

@[simp] lemma entries_send (s : MemoryStore) (event : Option StoreEvent) :
    (s.send event).entries = s.entries := rfl

@[simp] lemma entries_setPersistError (s : MemoryStore) (err : Option SaveError) :
    (s.setPersistError err).1.entries = s.entries := by
  unfold setPersistError
  split <;> rfl

lemma entries_putWithOrigin (env : Env) (s : MemoryStore) (entry : SignedEntry)
    (origin : InsertOrigin) :
    (s.putWithOrigin env entry origin).1.entries = (s.putEntry entry origin true).1.entries := by
  unfold putWithOrigin
  dsimp only
  split
  · split <;> simp
  · rfl

lemma triples_putWithOrigin (env : Env) (s : MemoryStore) (entry : SignedEntry)
    (origin : InsertOrigin) :
    (s.putWithOrigin env entry origin).1.triples = insertMax s.triples entry.triple := by
  rw [← s.triples_putEntry entry origin true]
  simp only [triples, entries_putWithOrigin]

/-! ## A sequence of inserts -/

inductive Insert where
  | put (entry : SignedEntry)
  | putLocal (entry : SignedEntry)
  | putWithOrigin (entry : SignedEntry) (origin : InsertOrigin)

namespace Insert

def entry : Insert → SignedEntry
  | put e => e
  | putLocal e => e
  | putWithOrigin e _ => e

def run (env : Env) (s : MemoryStore) : Insert → MemoryStore
  | put e => (s.put e).1
  | putLocal e => (s.putLocal env e).1
  | putWithOrigin e origin => (s.putWithOrigin env e origin).1

lemma triples_run (env : Env) (s : MemoryStore) (op : Insert) :
    (op.run env s).triples = insertMax s.triples op.entry.triple := by
  cases op with
  | put e => exact s.triples_putEntry e .zero false
  | putLocal e => exact s.triples_putWithOrigin env e .zero
  | putWithOrigin e origin => exact s.triples_putWithOrigin env e origin

end Insert

def Reorders (s s' : MemoryStore) : Prop :=
  ∃ (m : GoMap Bytes SignedEntry) (hm : m.toList.Perm s.entries.toList), s' = { s with
      entries := m
      keyed := fun k e h => s.keyed k e
        (GoMap.get?_eq_some.mpr (hm.subset (GoMap.get?_eq_some.mp h))) }

lemma Reorders.refl (s : MemoryStore) : s.Reorders s := ⟨s.entries, .rfl, rfl⟩

lemma Reorders.triples_eq (h : s.Reorders s') : s'.triples = s.triples := by
  obtain ⟨m, hm, rfl⟩ := h
  ext t
  exact exists_congr fun e => and_congr_left' (hm.map Prod.snd).mem_iff

inductive InsertRun (env : Env) : MemoryStore → List Insert → MemoryStore → Prop where
  | nil (s : MemoryStore) : InsertRun env s [] s
  | cons {s s₁ s' : MemoryStore} {op : Insert} {ops : List Insert} :
      s.Reorders s₁ → InsertRun env (op.run env s₁) ops s' → InsertRun env s (op :: ops) s'

lemma InsertRun.foldl (env : Env) (s : MemoryStore) (ops : List Insert) :
    InsertRun env s ops (ops.foldl (Insert.run env) s) := by
  induction ops generalizing s with
  | nil => exact .nil s
  | cons op ops ih => exact .cons (.refl s) (ih _)

def inserted (ops : List Insert) : Set Triple := {t | ∃ op ∈ ops, op.entry.triple = t}

/-- **The run.**  A store that holds the maximal triples of `L` holds, after a sequence of inserts,
the maximal triples of `L` and all that was inserted. -/
theorem InsertRun.triples_eq (h : InsertRun env s ops s')
    (hL : L.Finite) (hs : s.triples = maximals L) : s'.triples = maximals (inserted ops ∪ L) := by
  induction h generalizing L with
  | nil s => simp [inserted, hs]
  | @cons s s₁ s' op ops hre _ ih =>
    have hstep : (op.run env s₁).triples = maximals (insert op.entry.triple L) := by
      rw [Insert.triples_run, hre.triples_eq, hs, insertMax_maximals hL]
    rw [ih (hL.insert _) hstep]
    congr 1
    ext t
    simp only [inserted, Set.mem_union, Set.mem_insert_iff, List.mem_cons,
      exists_eq_or_imp, eq_comm (a := t)]
    exact or_left_comm.trans or_assoc.symm

lemma InsertRun.triples_of_empty (h : InsertRun env s ops s')
    (hempty : s.entries = .empty) : s'.triples = maximals (inserted ops) := by
  have hs : s.triples = maximals (∅ : Set Triple) := by
    ext t
    simp [mem_triples, hempty, values, empty, maximals]
  simpa using h.triples_eq Set.finite_empty hs

lemma mem_maximals_inserted : t ∈ maximals (inserted ops) ↔ ∃ op ∈ ops, op.entry.triple = t ∧
      ∀ op' ∈ ops, op'.entry.triple ≠ t → ¬ op'.entry.Shadows op.entry := by
  rw [mem_maximals_iff]
  constructor
  · rintro ⟨⟨op, hop, rfl⟩, hmax⟩
    refine ⟨op, hop, rfl, fun op' hop' hne hsh => ?_⟩
    exact hmax _ ⟨op', hop', rfl⟩ hne (SignedEntry.shadows_iff.mp hsh)
  · rintro ⟨op, hop, rfl, hmax⟩
    refine ⟨⟨op, hop, rfl⟩, ?_⟩
    rintro _ ⟨op', hop', rfl⟩ hne hle
    exact hmax op' hop' hne (SignedEntry.shadows_iff.mpr hle)

lemma inserted_eq_of_perm
    (h : (ops.map Insert.entry).Perm (ops'.map Insert.entry)) : inserted ops = inserted ops' := by
  have himage : ∀ l : List Insert, inserted l = {t | ∃ e ∈ l.map Insert.entry, e.triple = t} := by
    intro l
    ext t
    simp [inserted]
  rw [himage, himage]
  ext t
  exact exists_congr fun e => and_congr_left' h.mem_iff

/-- **Inserts converge whatever their order.**  The stored triples are those of the inserted entries that no
inserted entry with another triple shadows. -/
theorem inserts_converge {env : Env} {s s' : MemoryStore} {ops : List Insert}
    (hempty : s.entries = .empty) (hrun : InsertRun env s ops s') :
    (∀ k e, s'.entries.get? k = some e → k = e.entry.id.bytes) ∧
      (∀ k k' e e', s'.entries.get? k = some e → s'.entries.get? k' = some e' → k ≠ k' →
        ¬ e.Shadows e') ∧
      (∀ t : Triple, (∃ e ∈ s'.entries.values, e.triple = t) ↔ ∃ op ∈ ops, op.entry.triple = t ∧
          ∀ op' ∈ ops, op'.entry.triple ≠ t → ¬ op'.entry.Shadows op.entry) ∧
      ∀ (env' : Env) (r r' : MemoryStore) (ops' : List Insert), r.entries = .empty →
        InsertRun env' r ops' r' → (ops.map Insert.entry).Perm (ops'.map Insert.entry) →
        ∀ t : Triple, (∃ e ∈ s'.entries.values, e.triple = t) ↔
          ∃ e ∈ r'.entries.values, e.triple = t := by
  have htriples := hrun.triples_of_empty hempty
  refine ⟨s'.keyed, ?_, fun t => ?_, ?_⟩
  · intro k k' e e' he he' hne hsh
    have hk := s'.keyed k e he
    have hk' := s'.keyed k' e' he'
    have hmem : e.triple ∈ maximals (inserted ops) :=
      htriples ▸ ⟨e, mem_values_iff.mpr (hk ▸ he), rfl⟩
    have hmem' : e'.triple ∈ maximals (inserted ops) :=
      htriples ▸ ⟨e', mem_values_iff.mpr (hk' ▸ he'), rfl⟩
    have heq := eq_of_le_of_mem_maximals hmem' hmem (SignedEntry.shadows_iff.mp hsh)
    exact hne (hk.trans ((congrArg (fun t => t.id.bytes) heq).symm.trans hk'.symm))
  · rw [← mem_triples, htriples, mem_maximals_inserted]
  · intro env' r r' ops' hempty' hrun' hperm t
    rw [← mem_triples, ← mem_triples, htriples, hrun'.triples_of_empty hempty',
      inserted_eq_of_perm hperm]

/-- A key, then a newer record of a prefix of it, then a sibling that stays. -/
theorem inserts_converge_of_parent_after_child :
    let env := Env.plain (fun _ => Vector.replicate 32 0) 0
    let ns : NamespaceID := Vector.replicate 32 0
    let ops := [Insert.putLocal (.unsigned ns [1, 2] 5), Insert.put (.unsigned ns [1] 7),
      Insert.putWithOrigin (.unsigned ns [3] 1) .zero]
    ∀ t : Triple, (∃ e ∈ (ops.foldl (Insert.run env) new).entries.values, e.triple = t) ↔
      ∃ op ∈ ops, op.entry.triple = t ∧
        ∀ op' ∈ ops, op'.entry.triple ≠ t → ¬ op'.entry.Shadows op.entry := by
  intro env ns ops
  exact (inserts_converge (s := new) rfl (.foldl env new ops)).2.2.1

end MemoryStore

end Iroh.Docs
