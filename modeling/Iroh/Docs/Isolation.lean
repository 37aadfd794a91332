import Iroh.Docs.Scope

/-!
# Reconciliation stays inside its namespace

Two stores without persistence that hold the same entries of a scope are indistinguishable to
`processMessage` in that scope, whatever the message: the runs go in lockstep (`Progress.Alike`),
because an entry is compared with entries of its own namespace only.  What lies outside the scope is
neither sent nor changed (`SameOut`).
-/

namespace Iroh.Docs

open List

lemma NamespaceScope.contains_iff_of_le {sc : NamespaceScope}
    (h : a.triple ≤ b.triple) : sc.contains a ↔ sc.contains b := by
  cases sc with
  | allNamespaces => simp [contains]
  | inNamespace id =>
    have hns : b.entry.id.namespaceID = a.entry.id.namespaceID := h.1
    rw [contains_inNamespace, contains_inNamespace, Entry.namespaceID, Entry.namespaceID, hns]

namespace MemoryStore

def SameOut (sc : NamespaceScope) (s s' : MemoryStore) : Prop :=
  ∀ e, ¬ sc.contains e → (e ∈ s.entries.values ↔ e ∈ s'.entries.values)

lemma SameOut.refl (sc : NamespaceScope) (s : MemoryStore) : SameOut sc s s := fun _ _ => Iff.rfl

variable {sc : NamespaceScope} {s s' : MemoryStore} {entry : SignedEntry} {p p' : Progress}
  {part : MessagePart} {parts : List MessagePart}

lemma SameOut.trans (h : SameOut sc s s₁) (h' : SameOut sc s₁ s₂) : SameOut sc s s₂ :=
  fun e he => (h e he).trans (h' e he)

/-- Nothing is persisted. -/
structure InMemory (s : MemoryStore) : Prop where
  persistPath : s.persistPath = ""
  persistErr : s.persistErr = none

/-! ## One insert -/

lemma blocked_congr (h : SameIn sc s s') (hsc : sc.contains entry) :
    (∃ t ∈ s.triples, entry.triple ≤ t) ↔ ∃ t ∈ s'.triples, entry.triple ≤ t := by
  constructor
  · rintro ⟨_, ⟨e, he, rfl⟩, hle⟩
    exact ⟨_, ⟨e, (h e ((NamespaceScope.contains_iff_of_le hle).mp hsc)).mp he, rfl⟩, hle⟩
  · rintro ⟨_, ⟨e, he, rfl⟩, hle⟩
    exact ⟨_, ⟨e, (h e ((NamespaceScope.contains_iff_of_le hle).mp hsc)).mpr he, rfl⟩, hle⟩

lemma sameOut_putWithOrigin (env : Env) (s : MemoryStore) (hsc : sc.contains entry)
    (origin : InsertOrigin) : SameOut sc s (s.putWithOrigin env entry origin).1 := by
  intro e he
  rw [entries_putWithOrigin, mem_values_putEntry]
  split
  · rfl
  · constructor
    · intro hmem
      refine Or.inr ⟨hmem, fun hle => he ?_⟩
      exact (NamespaceScope.contains_iff_of_le hle).mpr hsc
    · rintro (rfl | ⟨hmem, -⟩)
      · exact absurd hsc he
      · exact hmem

lemma sameIn_putWithOrigin (env : Env) (h : SameIn sc s s') (hsc : sc.contains entry)
    (origin : InsertOrigin) :
    SameIn sc (s.putWithOrigin env entry origin).1 (s'.putWithOrigin env entry origin).1 := by
  intro e he
  rw [entries_putWithOrigin, entries_putWithOrigin, mem_values_putEntry, mem_values_putEntry]
  split
  next hblocked =>
    rw [if_pos ((blocked_congr h hsc).mp hblocked)]
    exact h e he
  next hblocked =>
    rw [if_neg (mt (blocked_congr h hsc).mpr hblocked)]
    exact or_congr_right (and_congr_left' (h e he))

lemma inserted_putEntry (s : MemoryStore) (entry : SignedEntry) (origin : InsertOrigin)
    (notify : Bool) :
    (s.putEntry entry origin notify).2.1.inserted = true ↔ ¬ ∃ t ∈ s.triples, entry.triple ≤ t := by
  rw [← any_blocks_iff]
  unfold putEntry
  split <;> simp_all

lemma InMemory.putEntry (hs : s.InMemory) (entry : SignedEntry) (origin : InsertOrigin)
    (notify : Bool) : (s.putEntry entry origin notify).1.InMemory := by
  unfold MemoryStore.putEntry
  split
  · exact hs
  · exact ⟨hs.persistPath, hs.persistErr⟩

section

variable (hs : s.InMemory) (env : Env) (entry : SignedEntry) (origin : InsertOrigin)
include hs

lemma InMemory.putWithOrigin_eq : s.putWithOrigin env entry origin =
      ((s.putEntry entry origin true).1.send (s.putEntry entry origin true).2.2,
        (s.putEntry entry origin true).2.1) := by
  have hpath := (hs.putEntry entry origin true).persistPath
  simp [putWithOrigin, hpath]

lemma InMemory.putWithOrigin_err : (s.putWithOrigin env entry origin).2.err = none := by
  rw [hs.putWithOrigin_eq]
  unfold MemoryStore.putEntry
  split <;> rfl

lemma InMemory.putWithOrigin : (s.putWithOrigin env entry origin).1.InMemory := by
  rw [hs.putWithOrigin_eq]
  have hput := hs.putEntry entry origin true
  exact ⟨hput.persistPath, hput.persistErr⟩

end

/-! ## The loop over the values of a range item -/

/-- Two calls that have done the same in the scope. -/
structure Progress.Alike (sc : NamespaceScope) (p p' : Progress) : Prop where
  same : SameIn sc p.store p'.store
  ticks : p.ticks = p'.ticks
  inserted : p.inserted = p'.inserted
  left : p.store.InMemory
  right : p'.store.InMemory

lemma putValue_alike (env : Env) (h : p.Alike sc p') (value : RangeValue) :
    (putValue env sc p value).2 = none ∧ (putValue env sc p' value).2 = none ∧
      (putValue env sc p value).1.Alike sc (putValue env sc p' value).1 := by
  by_cases hsc : sc.contains value.entry
  · unfold putValue
    simp only [hsc, h.ticks, Bool.not_true, Bool.false_eq_true, if_false]
    split
    · exact ⟨rfl, rfl, h.same, rfl, h.inserted, h.left, h.right⟩
    · have hdrop : (p.store.putWithOrigin env value.entry
          ⟨.insertOriginRemote, env.fromPeer, value.status⟩).2.inserted =
          (p'.store.putWithOrigin env value.entry
            ⟨.insertOriginRemote, env.fromPeer, value.status⟩).2.inserted := by
        rw [h.left.putWithOrigin_eq, h.right.putWithOrigin_eq, Bool.eq_iff_iff,
          inserted_putEntry, inserted_putEntry, blocked_congr h.same hsc]
      simp only [h.left.putWithOrigin_err, h.right.putWithOrigin_err, hdrop, h.inserted]
      exact ⟨trivial, trivial, sameIn_putWithOrigin env h.same hsc _, rfl, rfl,
        h.left.putWithOrigin .., h.right.putWithOrigin ..⟩
  · simp only [putValue, hsc, Bool.not_false, if_true]
    exact ⟨trivial, trivial, h⟩

lemma putValue_sameOut (env : Env) (sc : NamespaceScope) (p : Progress) (value : RangeValue) :
    SameOut sc p.store (putValue env sc p value).1.store := by
  unfold putValue
  by_cases hsc : sc.contains value.entry
  · simp only [hsc, Bool.not_true, Bool.false_eq_true, if_false]
    split
    · exact .refl sc _
    · exact sameOut_putWithOrigin env p.store hsc _
  · simp only [hsc]
    exact .refl sc _

lemma putValues_alike (env : Env) (values : List RangeValue) (h : p.Alike sc p') :
    (putValues env sc p values).2 = none ∧ (putValues env sc p' values).2 = none ∧
      (putValues env sc p values).1.Alike sc (putValues env sc p' values).1 := by
  induction values generalizing p p' with
  | nil => exact ⟨rfl, rfl, h⟩
  | cons value values ih =>
    obtain ⟨herr, herr', hstep⟩ := putValue_alike env h value
    simp only [putValues, herr, herr']
    exact ih hstep

lemma putValues_sameOut (env : Env) (sc : NamespaceScope) (values : List RangeValue)
    (p : Progress) : SameOut sc p.store (putValues env sc p values).1.store := by
  induction values generalizing p with
  | nil => exact .refl sc _
  | cons value values ih =>
    have hstep := putValue_sameOut env sc p value
    unfold putValues
    dsimp only
    split
    · exact hstep
    · exact hstep.trans (ih _)

lemma processItems_alike (env : Env) (items : List RangeItem) (h : p.Alike sc p') :
    (∃ parts, (processItems env sc p items).2 = .ok parts ∧
        (processItems env sc p' items).2 = .ok parts) ∧
      (processItems env sc p items).1.Alike sc (processItems env sc p' items).1 := by
  induction items generalizing p p' with
  | nil => exact ⟨⟨[], rfl, rfl⟩, h⟩
  | cons item items ih =>
    obtain ⟨herr, herr', hvalues⟩ := putValues_alike env item.values h
    obtain ⟨⟨parts, hparts, hparts'⟩, hrest⟩ := ih hvalues
    simp only [processItems, herr, herr', hparts, hparts', itemAnswer_congr h.same]
    exact ⟨⟨_, rfl, rfl⟩, hrest⟩

lemma processItems_sameOut (env : Env) (sc : NamespaceScope) (items : List RangeItem)
    (p : Progress) : SameOut sc p.store (processItems env sc p items).1.store := by
  induction items generalizing p with
  | nil => exact .refl sc _
  | cons item items ih =>
    have hvalues := putValues_sameOut env sc item.values p
    unfold processItems
    dsimp only
    split
    · exact hvalues
    · exact hvalues.trans (ih _)

/-! ## The reply carries entries of the scope only -/

def ScopedValues (sc : NamespaceScope) (parts : List MessagePart) : Prop :=
  ∀ part ∈ parts, ∀ v ∈ part.values, sc.contains v.entry

lemma ScopedValues.nil (sc : NamespaceScope) : ScopedValues sc [] := by
  simp [ScopedValues]

lemma ScopedValues.cons (hpart : ∀ v ∈ part.values, sc.contains v.entry) (h : ScopedValues sc parts) :
    ScopedValues sc (part :: parts) := by
  intro q hq
  rcases mem_cons.mp hq with rfl | hq
  · exact hpart
  · exact h q hq

lemma ScopedValues.append (h : ScopedValues sc parts)
    (h' : ScopedValues sc parts') : ScopedValues sc (parts ++ parts') := by
  intro q hq
  exact (mem_append.mp hq).elim (h q) (h' q)

lemma ScopedValues.flatMap {α : Type*} {l : List α} {f : α → List MessagePart}
    (h : ∀ a ∈ l, ScopedValues sc (f a)) : ScopedValues sc (l.flatMap f) := by
  intro q hq
  obtain ⟨a, ha, hq⟩ := mem_flatMap.mp hq
  exact h a ha q hq

@[simp] lemma values_fingerprintPart (blake3 : Blake3) (s : MemoryStore) (sc : NamespaceScope)
    (r : Range) : (s.fingerprintPart blake3 sc r).values = [] := rfl

lemma contains_of_mem_rangeValues
    (h : v ∈ rangeValues env (s.scopeRange sc r)) : sc.contains v.entry := by
  obtain ⟨e, he, rfl⟩ := mem_map.mp h
  exact (mem_scopeRange.mp he).2.1

lemma scopedValues_itemAnswer (env : Env) (s : MemoryStore) (sc : NamespaceScope)
    (item : RangeItem) : ScopedValues sc (itemAnswer env s sc item) := by
  intro part hpart v hv
  obtain ⟨-, rfl⟩ := mem_itemAnswer.mp hpart
  exact (mem_scopeRange.mp (mem_itemDiff hv).1).2.1

lemma scopedValues_processItems (env : Env) (sc : NamespaceScope) (items : List RangeItem)
    (p : Progress) (h : (processItems env sc p items).2 = .ok parts) : ScopedValues sc parts := by
  induction items generalizing p parts with
  | nil =>
    cases h
    exact .nil sc
  | cons item items ih =>
    obtain ⟨-, -, rest, hrest, rfl⟩ := processItems_cons_ok h
    exact (scopedValues_itemAnswer env p.store sc item).append (ih _ hrest)

lemma scopedValues_answerFingerprint (env : Env) (s : MemoryStore) (sc : NamespaceScope)
    (config : SyncConfig) (remote : RangeFingerprint) :
    ScopedValues sc (answerFingerprint env s sc config remote) := by
  unfold answerFingerprint
  split
  · exact .nil sc
  · dsimp only
    split
    · exact .cons (fun v hv => contains_of_mem_rangeValues hv) (.nil sc)
    · intro part hpart v hv
      obtain ⟨r, -, rfl⟩ := mem_map.mp hpart
      split at hv
      · simp at hv
      · exact contains_of_mem_rangeValues hv

/-! Bounding replaces range items by fingerprints, and fingerprints carry no values. -/

lemma scopedValues_splitOversized (blake3 : Blake3) (s : MemoryStore)
    (h : ∀ v ∈ part.values, sc.contains v.entry) :
    ScopedValues sc (s.splitOversized blake3 sc part) := by
  have hself : ScopedValues sc [part] := .cons h (.nil sc)
  unfold splitOversized
  split
  · split
    · exact hself
    · split
      · exact hself
      · intro q hq v hv
        obtain ⟨r, -, rfl⟩ := mem_map.mp hq
        simp at hv
  · exact hself

lemma contains_of_mem_fitPart
    (h : ∀ v ∈ part.values, sc.contains v.entry) (hfit : s.fitPart blake3 sc size part = some fit) :
    ∀ v ∈ fit.1.values, sc.contains v.entry := by
  obtain ⟨b, -, hfit⟩ := Option.bind_eq_some_iff.mp hfit
  split at hfit
  · split at hfit
    · obtain ⟨b', -, rfl⟩ := Option.map_eq_some_iff.mp hfit
      simp
    · cases hfit
      exact h
  · cases hfit
    exact h

lemma scopedValues_fitParts
    (h : ScopedValues sc parts) (hout : s.fitParts blake3 sc size parts = some out) :
    ScopedValues sc out := by
  induction parts generalizing size out with
  | nil =>
    cases hout
    exact h
  | cons part rest ih =>
    obtain ⟨fit, hone, hout⟩ := Option.bind_eq_some_iff.mp hout
    obtain ⟨out', hrest, rfl⟩ := Option.map_eq_some_iff.mp hout
    exact .cons (contains_of_mem_fitPart (h part mem_cons_self) hone)
      (ih (fun q hq => h q (mem_cons_of_mem _ hq)) hrest)

lemma scopedValues_boundedMessage (blake3 : Blake3) (s : MemoryStore) (h : ScopedValues sc parts) :
    ScopedValues sc (s.boundedMessage blake3 sc parts).parts := by
  unfold boundedMessage
  split
  next split hsome =>
    refine scopedValues_fitParts (.flatMap fun part hpart => ?_) hsome
    exact scopedValues_splitOversized blake3 s (h part hpart)
  · exact h

/-! ## One call of `processMessage` -/

lemma replyParts_alike (env : Env) (h : SameIn sc s s') (hs : s.InMemory) (hs' : s'.InMemory)
    (config : SyncConfig) (message : Message) :
    (s.replyParts env sc config message).2 = (s'.replyParts env sc config message).2 ∧
      (s.replyParts env sc config message).1.Alike sc (s'.replyParts env sc config message).1 := by
  have hstart : Progress.Alike sc ⟨s, 0, []⟩ ⟨s', 0, []⟩ := ⟨h, rfl, rfl, hs, hs'⟩
  obtain ⟨⟨parts, hparts, hparts'⟩, hdone⟩ := processItems_alike env (items message) hstart
  simp only [replyParts, hs.persistErr, hs'.persistErr, hparts, hparts',
    answerFingerprint_congr hdone.same]
  exact ⟨trivial, hdone⟩

lemma replyParts_sameOut (env : Env) (sc : NamespaceScope) (s : MemoryStore)
    (config : SyncConfig) (message : Message) :
    SameOut sc s (s.replyParts env sc config message).1.store := by
  unfold replyParts
  split
  · exact .refl sc s
  · exact processItems_sameOut env sc (items message) ⟨s, 0, []⟩

lemma scopedValues_replyParts (env : Env) (sc : NamespaceScope) (s : MemoryStore)
    (config : SyncConfig) (message : Message) (h : (s.replyParts env sc config message).2 = .ok parts) :
    ScopedValues sc parts := by
  obtain ⟨-, answers, hanswers, rfl⟩ := replyParts_ok h
  refine (scopedValues_processItems env sc _ _ hanswers).append (.flatMap fun remote _ => ?_)
  exact scopedValues_answerFingerprint env _ sc _ remote

/-- **Reconciliation in one namespace neither reads nor touches another.** -/
theorem processMessage_isolated (env : Env) (N : NamespaceID) (config : SyncConfig)
    (message : Message) (s s' : MemoryStore) (hs : s.InMemory) (hs' : s'.InMemory)
    (h : ∀ e : SignedEntry, e.entry.namespaceID = N →
      (e ∈ s.entries.values ↔ e ∈ s'.entries.values)) :
    let done := s.processMessage env (.inNamespace N) config message
    let done' := s'.processMessage env (.inNamespace N) config message
    done.reply = done'.reply ∧ (∀ e : SignedEntry, e.entry.namespaceID = N →
        (e ∈ done.store.entries.values ↔ e ∈ done'.store.entries.values)) ∧
      (∀ reply, done.reply = .ok (some reply) → ∀ v ∈ reply.values, v.entry.entry.namespaceID = N) ∧
      (∀ e : SignedEntry, e.entry.namespaceID ≠ N →
        ((e ∈ done.store.entries.values ↔ e ∈ s.entries.values) ∧
          (e ∈ done'.store.entries.values ↔ e ∈ s'.entries.values))) := by
  have hsame : SameIn (.inNamespace N) s s' :=
    fun e he => h e (NamespaceScope.contains_inNamespace.mp he)
  obtain ⟨hparts, halike⟩ := replyParts_alike env hsame hs hs' config message
  refine ⟨?_, ?_, ?_, ?_⟩
  · simp [processMessage, hparts, boundedMessage_congr halike.same]
  · intro e he
    exact halike.same e (NamespaceScope.contains_inNamespace.mpr he)
  · intro reply hreply v hv
    rcases hout : (s.replyParts env (.inNamespace N) config message).2 with err | out
    · simp [processMessage, hout, Except.map] at hreply
    · simp only [processMessage, hout, Except.map, Except.ok.injEq, Option.ite_none_left_eq_some,
        Option.some.injEq] at hreply
      obtain ⟨-, rfl⟩ := hreply
      obtain ⟨part, hpart, hv⟩ := mem_flatMap.mp hv
      have hscoped := scopedValues_boundedMessage env.blake3
        (s.replyParts env (.inNamespace N) config message).1.store
        (scopedValues_replyParts env _ s config message hout)
      exact NamespaceScope.contains_inNamespace.mp (hscoped part hpart v hv)
  · intro e he
    have hout : ¬ (NamespaceScope.inNamespace N).contains e := by simpa using he
    exact ⟨(replyParts_sameOut env _ s config message e hout).symm,
      (replyParts_sameOut env _ s' config message e hout).symm⟩

/-- A peer that asks for every range sees the same two entries with and without one of another namespace. -/
theorem processMessage_isolated_from_other_namespace :
    let env := Env.plain (fun _ => Vector.replicate 32 0) 0
    let N : NamespaceID := Vector.replicate 32 0
    let own := (((new.put (.unsigned N [1] 5)).1.put (.unsigned N [2] 4)).1)
    let other := SignedEntry.unsigned (Vector.replicate 32 1) [7] 3
    let message : Message := ⟨[.rangeItem ⟨.zero, [], false⟩]⟩
    (own.processMessage env (.inNamespace N) ⟨0, 0⟩ message).reply =
      ((own.put other).1.processMessage env (.inNamespace N) ⟨0, 0⟩ message).reply := by
  intro env N own other message
  have hvalues : (own.put other).1.entries.values = own.entries.values ++ [other] := rfl
  refine (processMessage_isolated env N ⟨0, 0⟩ message own (own.put other).1 ⟨rfl, rfl⟩ ⟨rfl, rfl⟩
    fun e he => ?_).1
  rw [hvalues, mem_append, mem_singleton]
  refine (or_iff_left ?_).symm
  rintro rfl
  exact absurd he (by decide)

end MemoryStore

end Iroh.Docs
