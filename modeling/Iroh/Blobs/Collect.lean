import Iroh.Blobs.FSStore

/-!
# Garbage collection

Reference: `blobs/tags.go`, `GCWithEvents` to `markLive`.

Marking goes once through the tags.  A tag whose hash is already marked is passed over, whatever its
format: a hash sequence that was met before as a raw blob, or as a child of another sequence, is not
opened, and its children stay unmarked.  Before a file is removed the tags are looked at once more,
for its own hash only.
-/

namespace Iroh.Blobs

open List GoMap

namespace FSStore

def gcRoots (s : FSStore) : List HashAndFormat := s.tags.values ++ s.temp.values

/-- `protectsHashLocked`. -/
def protectsHash (s : FSStore) (hash : Hash) : Bool :=
  s.tags.values.any (·.hash = hash) || s.temp.values.any (·.hash = hash)

def markLive (s : FSStore) (live : GoSet Hash) (value : HashAndFormat) : GoSet Hash :=
  if value.hash = emptyHash then live
  else if live.contains value.hash then live
  else
    let live := live.set value.hash ()
    if value.format = .raw then live
    else match s.readData value.hash with
      | none => live
      | some data => match parseHashSequence data with
        | .error _ => live
        | .ok seq => seq.foldl (fun live hash => live.set hash ()) live

/-- The marking loop of `GCWithEvents`. -/
def mark (s : FSStore) : GoSet Hash := s.gcRoots.foldl s.markLive .empty

end FSStore

/-! ## Sweeping -/

/-- What can go wrong around the collector: the context may end before each entry (the first check is
the one before marking), the directory may not list, and each file may not be removed. -/
structure GCEnv where
  ctxErr : ℕ → Option String
  readDir : Option String
  removeData : String → Option String
  removeOutboard : String → Option String

def GCEnv.quiet : GCEnv := ⟨fun _ => none, none, fun _ => none, fun _ => none⟩

inductive GCEvent where
  | mark (live : ℕ)
  | delete (hash : Hash) (deleted : ℕ)
  | done (deleted : ℕ)
deriving DecidableEq

inductive GCError where
  | context (err : String)
  | readDir (err : String)
  | removeData (err : String)
  | removeOutboard (err : String)
deriving DecidableEq

structure GCState where
  data : Dir
  bao : Dir
  deleted : ℕ
  events : List GCEvent

abbrev Collector := EStateM GCError GCState

def Collector.check (err : Option GCError) : Collector Unit :=
  match err with
  | some err => throw err
  | none => pure ()

def removeBlob (env : GCEnv) (name : String) (hash : Hash) : Collector Unit := do
  Collector.check ((env.removeData name).map .removeData)
  modify fun g => { g with data := g.data.delete name }
  Collector.check ((env.removeOutboard name).map .removeOutboard)
  modify fun g => { g with
    bao := g.bao.delete name
    deleted := g.deleted + 1
    events := g.events ++ [.delete hash (g.deleted + 1)] }

section

variable (base32 : String → Option Bytes) (env : GCEnv) (s : FSStore) (live : GoSet Hash)

def sweepEntry (k : ℕ) (entry : String × DirEntry) : Collector Unit := do
  Collector.check ((env.ctxErr (k + 1)).map .context)
  if entry.2.isDir then return
  else match parseHash base32 entry.1 with
    | none => return
    | some hash =>
      if live.contains hash then return
      else if s.protectsHash hash then return
      else removeBlob env entry.1 hash

def sweepLoop : ℕ → List (String × DirEntry) → Collector Unit
  | _, [] => return
  | k, entry :: entries => do
      sweepEntry base32 env s live k entry
      sweepLoop (k + 1) entries

end

/-- `GCWithEvents`, as a step on the directories. -/
def gcWithEvents (base32 : String → Option Bytes) (env : GCEnv) (s : FSStore) : Collector ℕ := do
  Collector.check ((env.ctxErr 0).map .context)
  modify fun g => { g with events := g.events ++ [.mark s.mark.len] }
  Collector.check (env.readDir.map .readDir)
  sweepLoop base32 env s s.mark 0 s.data.toList
  modify fun g => { g with events := g.events ++ [.done g.deleted] }
  let g ← get
  return g.deleted

def afterGC (base32 : String → Option Bytes) (env : GCEnv) (s : FSStore) : GCState :=
  stateOf (gcWithEvents base32 env s ⟨s.data, s.bao, 0, []⟩)

/-! ## What is marked -/

namespace FSStore

/-- Going through the roots in order, those whose sequence is read: not the empty hash, not raw, no
root before with the same hash, and no sequence opened before that lists it. -/
def openedRoots (s : FSStore) : (before opened rest : List HashAndFormat) → List HashAndFormat
  | _, opened, [] => opened
  | before, opened, r :: rest =>
    if r.hash ≠ emptyHash ∧ r.format ≠ .raw ∧ (∀ q ∈ before, q.hash ≠ r.hash) ∧
        ∀ q ∈ opened, r.hash ∉ sequenceOf (s.readData q.hash) then
      s.openedRoots (before ++ [r]) (opened ++ [r]) rest
    else s.openedRoots (before ++ [r]) opened rest

def opened (s : FSStore) : List HashAndFormat := s.openedRoots [] [] s.gcRoots

lemma mem_keys_foldl_set (l : List Hash) (h : Hash) : ∀ live : GoSet Hash,
    h ∈ (l.foldl (fun live hash => live.set hash ()) live).keys ↔ h ∈ live.keys ∨ h ∈ l := by
  induction l with
  | nil => simp
  | cons x l ih =>
    intro live
    rw [foldl_cons, ih, mem_keys_set, mem_cons]
    tauto

variable {s : FSStore} {live : GoSet Hash} {r : HashAndFormat}

lemma mem_markLive (hempty : r.hash ≠ emptyHash) (hnew : r.hash ∉ live.keys) :
    h ∈ (s.markLive live r).keys ↔
      h ∈ live.keys ∨ h = r.hash ∨ (r.format ≠ .raw ∧ h ∈ sequenceOf (s.readData r.hash)) := by
  unfold markLive
  rw [if_neg hempty, if_neg (mt GoMap.contains_iff.mp hnew)]
  split
  · rw [mem_keys_set]
    tauto
  · cases hread : s.readData r.hash with
    | none =>
      simp only [mem_keys_set]
      tauto
    | some data =>
      cases hparse : parseHashSequence data with
      | error e =>
        simp only [sequenceOf, hparse, mem_keys_set]
        tauto
      | ok seq =>
        simp only [sequenceOf, hparse, mem_keys_foldl_set, mem_keys_set]
        tauto

def MarkedBy (s : FSStore) (before opened : List HashAndFormat) (live : GoSet Hash) : Prop :=
  ∀ h, h ∈ live.keys ↔ (h ≠ emptyHash ∧ ∃ q ∈ before, q.hash = h) ∨
    ∃ q ∈ opened, h ∈ sequenceOf (s.readData q.hash)

lemma exists_mem_snoc {p : HashAndFormat → Prop} : (∃ q ∈ l ++ [r], p q) ↔ (∃ q ∈ l, p q) ∨ p r := by
  simp

lemma MarkedBy.skip {before opened : List HashAndFormat} (h : s.MarkedBy before opened live)
    (hr : r.hash = emptyHash ∨ r.hash ∈ live.keys) : s.MarkedBy (before ++ [r]) opened live := by
  intro h'
  rw [h h', exists_mem_snoc]
  constructor
  · exact fun hor => hor.imp_left fun hb => ⟨hb.1, Or.inl hb.2⟩
  · rintro (⟨hne, hb | rfl⟩ | ho)
    · exact Or.inl ⟨hne, hb⟩
    · exact (h _).mp (hr.resolve_left hne)
    · exact Or.inr ho

lemma MarkedBy.markLive {before opened : List HashAndFormat} (h : s.MarkedBy before opened live)
    (hempty : r.hash ≠ emptyHash) (hnew : r.hash ∉ live.keys) :
    s.MarkedBy (before ++ [r]) (if r.format = .raw then opened else opened ++ [r])
      (s.markLive live r) := by
  intro h'
  have hopened : (∃ q ∈ if r.format = .raw then opened else opened ++ [r],
      h' ∈ sequenceOf (s.readData q.hash)) ↔ (∃ q ∈ opened, h' ∈ sequenceOf (s.readData q.hash)) ∨
        (r.format ≠ .raw ∧ h' ∈ sequenceOf (s.readData r.hash)) := by
    by_cases hraw : r.format = .raw
    · simp [hraw]
    · simp [hraw]
  rw [mem_markLive hempty hnew, h h', exists_mem_snoc, hopened]
  constructor
  · rintro ((⟨hne, hb⟩ | ho) | rfl | hl)
    · exact Or.inl ⟨hne, Or.inl hb⟩
    · exact Or.inr (Or.inl ho)
    · exact Or.inl ⟨hempty, Or.inr rfl⟩
    · exact Or.inr (Or.inr hl)
  · rintro (⟨hne, hb | rfl⟩ | ho | hl)
    · exact Or.inl (Or.inl ⟨hne, hb⟩)
    · exact Or.inr (Or.inl rfl)
    · exact Or.inl (Or.inr ho)
    · exact Or.inr (Or.inr hl)

theorem foldl_markLive (s : FSStore) (rest : List HashAndFormat) :
    ∀ (before opened : List HashAndFormat) (live : GoSet Hash), s.MarkedBy before opened live →
      s.MarkedBy (before ++ rest) (s.openedRoots before opened rest) (rest.foldl s.markLive live) := by
  induction rest with
  | nil =>
    intro before opened live h
    rw [append_nil]
    exact h
  | cons r rest ih =>
    intro before opened live h
    rw [foldl_cons, openedRoots, show before ++ r :: rest = before ++ [r] ++ rest by simp]
    by_cases hempty : r.hash = emptyHash
    · have hmark : s.markLive live r = live := by rw [FSStore.markLive, if_pos hempty]
      rw [if_neg fun hc => hc.1 hempty, hmark]
      exact ih _ _ _ (h.skip (Or.inl hempty))
    by_cases hseen : r.hash ∈ live.keys
    · have hmark : s.markLive live r = live := by
        rw [FSStore.markLive, if_neg hempty, if_pos (GoMap.contains_iff.mpr hseen)]
      have hnot : ¬ (r.hash ≠ emptyHash ∧ r.format ≠ .raw ∧ (∀ q ∈ before, q.hash ≠ r.hash) ∧
          ∀ q ∈ opened, r.hash ∉ sequenceOf (s.readData q.hash)) := by
        rintro ⟨-, -, hbefore, hopened⟩
        rcases (h r.hash).mp hseen with ⟨-, q, hq, heq⟩ | ⟨q, hq, hmem⟩
        · exact hbefore q hq heq
        · exact hopened q hq hmem
      rw [if_neg hnot, hmark]
      exact ih _ _ _ (h.skip (Or.inr hseen))
    · -- a new root: nothing before it accounts for its hash
      have hfresh := fun q hq heq => hseen ((h r.hash).mpr (Or.inl ⟨hempty, q, hq, heq⟩))
      have hunlisted := fun q hq hmem => hseen ((h r.hash).mpr (Or.inr ⟨q, hq, hmem⟩))
      have hnext := h.markLive hempty hseen
      by_cases hraw : r.format = .raw
      · rw [if_neg fun hc => hc.2.1 hraw]
        rw [if_pos hraw] at hnext
        exact ih _ _ _ hnext
      · rw [if_pos ⟨hempty, hraw, hfresh, hunlisted⟩]
        rw [if_neg hraw] at hnext
        exact ih _ _ _ hnext

lemma mem_mark (s : FSStore) (h : Hash) : h ∈ s.mark.keys ↔
    (h ≠ emptyHash ∧ ∃ q ∈ s.gcRoots, q.hash = h) ∨
      ∃ q ∈ s.opened, h ∈ sequenceOf (s.readData q.hash) := by
  have hstart : s.MarkedBy [] [] .empty := fun h => by simp
  exact s.foldl_markLive s.gcRoots [] [] .empty hstart h

lemma protectsHash_iff : s.protectsHash h = true ↔ ∃ q ∈ s.gcRoots, q.hash = h := by
  simp [protectsHash, gcRoots, or_and_right, exists_or]

end FSStore

/-! ## What is swept -/

section

variable {base32 : String → Option Bytes} {env : GCEnv} {s : FSStore} {live : GoSet Hash}

def Garbage (base32 : String → Option Bytes) (s : FSStore) (live : GoSet Hash)
    (entry : String × DirEntry) : Prop :=
  entry.2.isDir = false ∧
    ∃ hash, parseHash base32 entry.1 = some hash ∧ hash ∉ live.keys ∧ s.protectsHash hash = false

lemma keeps_collectorCheck (err : Option GCError) : Keeps P (Collector.check err) := by
  cases err with
  | none => exact .pure _
  | some err => exact .throw err

variable {name : String}

lemma keeps_removeBlob (hne : name ≠ other) (hash : Hash) :
    Keeps (fun g => name ∈ g.data.keys) (removeBlob env other hash) := by
  refine (keeps_collectorCheck _).bind fun _ => .bind (.modify fun g hg => ?_) fun _ => ?_
  · exact mem_keys_delete.mpr ⟨hne, hg⟩
  · exact (keeps_collectorCheck _).bind fun _ => .modify fun g hg => hg

lemma keeps_sweepEntry (k : ℕ) (h : entry.1 = name → ¬ Garbage base32 s live entry) :
    Keeps (fun g => name ∈ g.data.keys) (sweepEntry base32 env s live k entry) := by
  refine (keeps_collectorCheck _).bind fun _ => ?_
  split
  · exact .pure _
  next hdir =>
    cases hparse : parseHash base32 entry.1 with
    | none => exact .pure _
    | some hash =>
      dsimp only
      split
      · exact .pure _
      next hlive =>
        split
        · exact .pure _
        next hprotect =>
          refine keeps_removeBlob (fun heq => h heq.symm ⟨by simpa using hdir, hash, hparse, ?_, ?_⟩) hash
          · exact mt GoMap.contains_iff.mpr hlive
          · simpa using hprotect

/-- **The sweep removes garbage only**, wherever it stops. -/
theorem keeps_sweepLoop
    (h : ∀ entry ∈ entries, entry.1 = name → ¬ Garbage base32 s live entry) (k : ℕ) :
    Keeps (fun g => name ∈ g.data.keys) (sweepLoop base32 env s live k entries) := by
  induction entries generalizing k with
  | nil => exact .pure _
  | cons entry entries ih =>
    obtain ⟨hentry, hrest⟩ := forall_mem_cons.mp h
    exact (keeps_sweepEntry k hentry).bind fun _ => ih hrest (k + 1)

lemma garbage_of_afterGC (base32 : String → Option Bytes) (env : GCEnv) (s : FSStore)
    (hname : name ∈ s.data.keys) (hgone : name ∉ (afterGC base32 env s).data.keys) :
    ∃ entry ∈ s.data.toList, entry.1 = name ∧ Garbage base32 s s.mark entry := by
  by_contra hnone
  push Not at hnone
  have hkeeps : Keeps (fun g => name ∈ g.data.keys) (gcWithEvents base32 env s) :=
    (keeps_collectorCheck _).bind fun _ => .bind (.modify fun _ hg => hg) fun _ =>
      (keeps_collectorCheck _).bind fun _ => (keeps_sweepLoop hnone 0).bind fun _ =>
        .bind (.modify fun _ hg => hg) fun _ => .get_bind fun _ _ => .pure _
  exact hgone (hkeeps _ hname)

lemma sweepEntry_quiet (base32 : String → Option Bytes) (s : FSStore) (live : GoSet Hash) (k : ℕ)
    (entry : String × DirEntry) (g : GCState) :
    ∃ g', sweepEntry base32 .quiet s live k entry g = .ok () g' ∧
      (∀ name ∈ g'.data.keys, name ∈ g.data.keys) ∧
      (Garbage base32 s live entry → entry.1 ∉ g'.data.keys) := by
  by_cases hgarbage : Garbage base32 s live entry
  · obtain ⟨hdir, hash, hparse, hlive, hprotect⟩ := hgarbage
    have hrun : sweepEntry base32 .quiet s live k entry g = removeBlob .quiet entry.1 hash g := by
      refine (bind_of_ok rfl _).trans ?_
      rw [if_neg (by simp [hdir]), hparse]
      dsimp only
      rw [if_neg (mt GoMap.contains_iff.mp hlive), if_neg (by simp [hprotect])]
    refine ⟨_, hrun, fun name hname => ?_, fun _ hmem => ?_⟩
    · exact (mem_keys_delete.mp hname).2
    · exact (mem_keys_delete.mp hmem).1 rfl
  · refine ⟨g, ?_, fun _ h => h, fun h => absurd h hgarbage⟩
    refine (bind_of_ok rfl _).trans ?_
    split
    · rfl
    rename_i hdir
    cases hparse : parseHash base32 entry.1 with
    | none => rfl
    | some hash =>
      dsimp only
      split
      · rfl
      rename_i hlive
      split
      · rfl
      rename_i hprotect
      exact absurd ⟨by simpa using hdir, hash, hparse, mt GoMap.contains_iff.mpr hlive,
        by simpa using hprotect⟩ hgarbage

lemma sweepLoop_quiet (base32 : String → Option Bytes) (s : FSStore) (live : GoSet Hash)
    (entries : List (String × DirEntry)) : ∀ (k : ℕ) (g : GCState),
    ∃ g', sweepLoop base32 .quiet s live k entries g = .ok () g' ∧
      (∀ name ∈ g'.data.keys, name ∈ g.data.keys) ∧
      ∀ entry ∈ entries, Garbage base32 s live entry → entry.1 ∉ g'.data.keys := by
  induction entries with
  | nil => exact fun k g => ⟨g, rfl, fun _ h => h, by simp⟩
  | cons entry entries ih =>
    intro k g
    obtain ⟨g₁, hrun₁, hsub₁, hgone₁⟩ := sweepEntry_quiet base32 s live k entry g
    obtain ⟨g₂, hrun₂, hsub₂, hgone₂⟩ := ih (k + 1) g₁
    refine ⟨g₂, (bind_of_ok hrun₁ _).trans hrun₂, fun name h => hsub₁ name (hsub₂ name h), ?_⟩
    intro e he hgarbage hmem
    rcases mem_cons.mp he with rfl | he
    · exact hgone₁ hgarbage (hsub₂ _ hmem)
    · exact hgone₂ e he hgarbage hmem

lemma afterGC_quiet (hentry : entry ∈ s.data.toList) (hgarbage : Garbage base32 s s.mark entry) :
    entry.1 ∉ (afterGC base32 .quiet s).data.keys := by
  obtain ⟨g', hrun, -, hgone⟩ := sweepLoop_quiet base32 s s.mark s.data.toList 0
    ⟨s.data, s.bao, 0, [.mark s.mark.len]⟩
  have hafter : (afterGC base32 .quiet s).data = g'.data := by
    have hwhole : gcWithEvents base32 .quiet s ⟨s.data, s.bao, 0, []⟩ =
        .ok g'.deleted { g' with events := g'.events ++ [.done g'.deleted] } :=
      (bind_of_ok rfl _).trans ((bind_of_ok rfl _).trans ((bind_of_ok rfl _).trans
        ((bind_of_ok hrun _).trans rfl)))
    rw [afterGC, hwhole]
    rfl
  rw [hafter]
  exact hgone entry hentry hgarbage

end

/-! ## Live content -/

def LiveContent (s : FSStore) (h : Hash) : Prop :=
  (∃ q ∈ s.gcRoots, q.hash = h) ∨
    ∃ q ∈ s.gcRoots, q.format = .hashSeq ∧ h ∈ sequenceOf (s.content q.hash)

def HasFile (base32 : String → Option Bytes) (s : FSStore) (h : Hash) : Prop :=
  ∃ entry ∈ s.data.toList, entry.2.isDir = false ∧ parseHash base32 entry.1 = some h

/-- **When garbage collection keeps live content.**  Whatever fails around it, a collection removes
no data file whose hash is a tag's, or is listed in the sequence of a tag of that format, exactly
when every such child with a data file is itself a tag's hash, or is listed in a sequence that is
opened. -/
theorem gc_keeps_live_iff (base32 : String → Option Bytes) (s : FSStore) :
    (∀ env, ∀ name ∈ s.data.keys, name ∉ (afterGC base32 env s).data.keys →
        ∀ h, parseHash base32 name = some h → ¬ LiveContent s h) ↔
      ∀ t ∈ s.gcRoots, t.format = .hashSeq → ∀ c ∈ sequenceOf (s.content t.hash),
        HasFile base32 s c → (∃ q ∈ s.gcRoots, q.hash = c) ∨
          ∃ q ∈ s.opened, c ∈ sequenceOf (s.readData q.hash) := by
  constructor
  · intro hsafe t ht hformat c hc hfile
    by_contra hcond
    rw [not_or] at hcond
    obtain ⟨entry, hentry, hdir, hparse⟩ := hfile
    have hgarbage : Garbage base32 s s.mark entry := by
      refine ⟨hdir, c, hparse, fun hmark => ?_, ?_⟩
      · rcases (s.mem_mark c).mp hmark with ⟨-, htag⟩ | hopened
        · exact hcond.1 htag
        · exact hcond.2 hopened
      · rw [← Bool.not_eq_true, FSStore.protectsHash_iff]
        exact hcond.1
    exact hsafe .quiet entry.1 (mem_map_of_mem hentry) (afterGC_quiet hentry hgarbage) c hparse
      (Or.inr ⟨t, ht, hformat, hc⟩)
  · intro hcond env name hname hgone h hparse hlive
    obtain ⟨entry, hentry, rfl, hdir, hash, hparse', hunmarked, hunprotected⟩ :=
      garbage_of_afterGC base32 env s hname hgone
    obtain rfl : hash = h := Option.some.inj (hparse'.symm.trans hparse)
    have huntagged : ¬ ∃ q ∈ s.gcRoots, q.hash = hash := fun htag => by
      rw [FSStore.protectsHash_iff.mpr htag] at hunprotected
      cases hunprotected
    rcases hlive with htag | ⟨t, ht, hformat, hc⟩
    · exact huntagged htag
    · rcases hcond t ht hformat hash hc ⟨entry, hentry, hdir, hparse⟩ with htag | hopened
      · exact huntagged htag
      · exact hunmarked ((s.mem_mark hash).mpr (Or.inr hopened))

def childHash : Hash := abcRoot

def collectionHash : Hash :=
  #v[220, 47, 115, 141, 23, 184, 167, 236, 3, 239, 221, 10, 149, 232, 211, 146, 75, 142, 5, 150, 80, 64,
    171, 109, 202, 253, 153, 41, 148, 1, 43, 212]

def taggedTwice : FSStore where
  data := ⟨[(childHash.string, .file [97, 98, 99] true),
    (collectionHash.string, .file childHash.toList true)], by decide⟩
  bao := ⟨[(childHash.string, .file [3, 0, 0, 0, 0, 0, 0, 0] true),
    (collectionHash.string, .file [32, 0, 0, 0, 0, 0, 0, 0] true)], by decide⟩
  tags := ⟨[("blob", ⟨collectionHash, .raw⟩), ("collection", ⟨collectionHash, .hashSeq⟩)],
    by decide⟩
  temp := .empty

/-- The child of the tagged sequence is collected. -/
theorem gc_removes_child_of_tagged_sequence :
    LiveContent taggedTwice childHash ∧ childHash.string ∈ taggedTwice.data.keys ∧
      parseHash (fun _ => none) childHash.string = some childHash ∧
      childHash.string ∉ (afterGC (fun _ => none) .quiet taggedTwice).data.keys := by
  refine ⟨Or.inr ⟨⟨collectionHash, .hashSeq⟩, ?_, rfl, ?_⟩, ?_, ?_, ?_⟩ <;> decide +kernel

end Iroh.Blobs
