import Iroh.Blobs.Collect
import Iroh.Blobs.Import

/-!
# Collecting garbage while blobs are committed

Reference: `blobs/tags.go::GCWithEvents`, `blobs/import.go::finishImport`.

The collector takes the lock for its roots and once more for each blob it is about to remove, but not for the
removal.  Between the two a commit may find the files of the blob in place, install nothing and hand out a
tag; the collector then removes what the tag protects.
-/

namespace Iroh.Blobs

open List GoMap

/-! ## The steps -/

inductive GCPhase where
  | idle
  | marking (roots : List HashAndFormat) (live : GoSet Hash)
  | sweeping (entries : List (String × DirEntry)) (live : GoSet Hash)
  | claimed (name : String) (entries : List (String × DirEntry)) (live : GoSet Hash)
  | dataRemoved (name : String) (entries : List (String × DirEntry)) (live : GoSet Hash)
  | done

/-- The next step looks at the context, lists the directory or removes a file.  An error there ends the
collection. -/
def GCPhase.canFail : GCPhase → Bool
  | .idle | .marking [] _ | .sweeping (_ :: _) _ | .claimed .. | .dataRemoved .. => true
  | .marking (_ :: _) _ | .sweeping [] _ | .done => false

/-- The store, a collection, and the tags that commits have returned and that are not closed. -/
structure Race where
  store : FSState
  gc : GCPhase
  held : List TempTag
  claimTag : ℕ

inductive RaceStep where
  /-- The collector's next step, and what goes wrong with it. -/
  | gc (err : Option String)
  /-- The locked part of `Commit`. -/
  | commit (env : FileEnv) (content : Bytes)
  | newTempTag (value : HashAndFormat)
  | setTag (name : String) (value : HashAndFormat)
  | deleteTag (name : String)
  /-- `TempTag.Close`. -/
  | release (id : ℕ)

namespace Race

section

variable (base32 : String → Option Bytes) (encode : Bytes → Bytes × Hash)

def sweep (s : Race) (entry : String × DirEntry) (entries : List (String × DirEntry))
    (live : GoSet Hash) : Race :=
  if entry.2.isDir then { s with gc := .sweeping entries live }
  else match parseHash base32 entry.1 with
    | none => { s with gc := .sweeping entries live }
    | some hash =>
      if live.contains hash || s.store.protectsHash hash then
        { s with gc := .sweeping entries live }
      else { s with gc := .claimed entry.1 entries live, claimTag := s.store.nextTag }

def collect (s : Race) : Race :=
  match s.gc with
  | .idle => { s with gc := .marking s.store.gcRoots .empty }
  | .marking [] live => { s with gc := .sweeping s.store.data.toList live }
  | .marking (root :: roots) live => { s with gc := .marking roots (s.store.markLive live root) }
  | .sweeping [] _ => { s with gc := .done }
  | .sweeping (entry :: entries) live => s.sweep base32 entry entries live
  | .claimed name entries live =>
    { s with
      store := { s.store with data := s.store.data.delete name }
      gc := .dataRemoved name entries live }
  | .dataRemoved name entries live =>
    { s with
      store := { s.store with bao := s.store.bao.delete name }
      gc := .sweeping entries live }
  | .done => s

def step (s : Race) : RaceStep → Race
  | .gc none => s.collect base32
  | .gc (some _) => if s.gc.canFail then { s with gc := .done } else s.collect base32
  | .commit env content => match finishImportLocked encode env content true s.store with
      | .ok (_, tag) store => { s with store := store, held := tag.toList ++ s.held }
      | .error _ store => { s with store := store }
  | .newTempTag value => { s with store := (s.store.newTempTag value).1 }
  | .setTag name value =>
    if name = "" then s
    else { s with store := { s.store with tags := s.store.tags.set name value } }
  | .deleteTag name => { s with store := { s.store with tags := s.store.tags.delete name } }
  | .release id =>
    { s with
      store := { s.store with temp := s.store.temp.delete id }
      held := s.held.filter (·.id ≠ id) }

end

def start (store : FSState) : Race := ⟨store, .idle, [], 0⟩

def Safe (s : Race) : Prop := ∀ tag ∈ s.held, s.store.complete tag.value.hash

def removing (s : Race) : Option String :=
  match s.gc with
  | .claimed name _ _ => some name
  | .dataRemoved name _ _ => some name
  | _ => none

/-- The step is not the removal of a file of a blob that was committed after the collector claimed it,
and whose tag is held. -/
def Timely (s : Race) (a : RaceStep) : Prop :=
  a = .gc none → ∀ tag ∈ s.held, s.claimTag < tag.id → s.removing ≠ some tag.value.hash.string

/-- Held tags are in the store, and tag numbers are past ones. -/
structure Inv (s : Race) : Prop where
  tagged : ∀ tag ∈ s.held, s.store.temp.get? tag.id = some tag.value
  issued : ∀ tag ∈ s.held, tag.id ≤ s.store.nextTag
  claim : s.claimTag ≤ s.store.nextTag
  unclaimed : ∀ tag ∈ s.held, tag.id ≤ s.claimTag → s.removing ≠ some tag.value.hash.string

variable {base32 : String → Option Bytes} {encode : Bytes → Bytes × Hash} {s : Race}

/-! ## What the steps leave alone -/

section

variable (h : s.Inv)
include h

lemma Inv.goto (store : FSState) (gc : GCPhase) (htemp : store.temp = s.store.temp)
    (hnext : store.nextTag = s.store.nextTag)
    (hremoving : ∀ name, removing { s with gc := gc } = some name → s.removing = some name) :
    Inv { s with store := store, gc := gc } where
  tagged := htemp ▸ h.tagged
  issued := hnext ▸ h.issued
  claim := hnext ▸ h.claim
  unclaimed := fun tag htag hid hname => h.unclaimed tag htag hid (hremoving _ hname)

lemma Inv.sweep (entry : String × DirEntry) (entries : List (String × DirEntry)) (live : GoSet Hash) :
    (s.sweep base32 entry entries live).Inv := by
  have hskip : Inv { s with gc := .sweeping entries live } := by
    refine h.goto s.store _ rfl rfl ?_
    intro name hname
    cases hname
  unfold Race.sweep
  split
  · exact hskip
  · split
    · exact hskip
    case h_2 hash hparse =>
      split
      · exact hskip
      case isFalse hunprotected =>
        refine ⟨h.tagged, h.issued, le_refl _, ?_⟩
        intro tag htag _ hname
        -- the tag's own hash is what the name parses to, and it is in the store
        have hentry : entry.1 = tag.value.hash.string := Option.some.inj hname
        rw [hentry, parseHash_string] at hparse
        apply hunprotected
        rw [← Option.some.inj hparse, Bool.or_eq_true]
        refine .inr (FSStore.protectsHash_iff.mpr ⟨tag.value, ?_, rfl⟩)
        apply mem_append_right
        exact mem_map.mpr ⟨_, get?_eq_some.mp (h.tagged tag htag), rfl⟩

lemma Inv.collect : (s.collect base32).Inv := by
  have hquiet : ∀ {store gc}, store.temp = s.store.temp → store.nextTag = s.store.nextTag →
      removing { s with gc := gc } = none → Inv { s with store := store, gc := gc } := by
    intro store gc htemp hnext hnone
    refine h.goto store gc htemp hnext ?_
    intro name hname
    cases hnone.symm.trans hname
  unfold Race.collect
  split
  · exact hquiet rfl rfl rfl
  · exact hquiet rfl rfl rfl
  · exact hquiet rfl rfl rfl
  · exact hquiet rfl rfl rfl
  · exact h.sweep _ _ _
  case h_6 name entries live hgc =>
    refine h.goto _ _ rfl rfl ?_
    intro name' hname
    rw [removing, hgc]
    exact hname
  · exact hquiet rfl rfl rfl
  · exact h

lemma Inv.newTempTag (value : HashAndFormat) {held : List TempTag}
    (hheld : ∀ tag ∈ held, tag ∈ s.held ∨ tag = (s.store.newTempTag value).2) :
    Inv { s with store := (s.store.newTempTag value).1, held := held } where
  tagged := by
    intro tag htag
    dsimp only [FSState.newTempTag]
    rw [get?_set]
    rcases hheld tag htag with hold | rfl
    · have hne : tag.id ≠ s.store.nextTag + 1 := by
        have hle := h.issued tag hold
        omega
      rw [if_neg hne]
      exact h.tagged tag hold
    · exact if_pos rfl
  issued := by
    intro tag htag
    rcases hheld tag htag with hold | rfl
    · exact (h.issued tag hold).trans (Nat.le_succ _)
    · exact le_refl _
  claim := h.claim.trans (Nat.le_succ _)
  unclaimed := by
    intro tag htag hid
    rcases hheld tag htag with hold | rfl
    · exact h.unclaimed tag hold hid
    · -- a new tag comes after the claim
      have hle := h.claim
      dsimp only [FSState.newTempTag] at hid
      omega

lemma Inv.sameTags {store : FSState} (hsame : SameTags s.store store) : Inv { s with store := store } :=
  h.goto store s.gc hsame.1 hsame.2 fun _ hname => hname

lemma Inv.commit (env : FileEnv) (content : Bytes) :
    (s.step base32 encode (.commit env content)).Inv := by
  dsimp only [step]
  rcases finishImportLocked_cases encode env content s.store with ⟨e, store, hrun, hsame⟩ |
    ⟨store, hsame, -, hrun⟩
  · rw [hrun]
    exact h.sameTags hsame
  · rw [hrun]
    refine (h.sameTags hsame).newTempTag _ ?_
    intro tag htag
    rcases mem_cons.mp htag with rfl | hold
    · exact .inr rfl
    · exact .inl hold

lemma step_inv (a : RaceStep) : (s.step base32 encode a).Inv := by
  cases a with
  | gc err =>
    cases err with
    | none => exact h.collect
    | some err =>
      dsimp only [step]
      split
      · refine h.goto s.store .done rfl rfl ?_
        intro name hname
        cases hname
      · exact h.collect
  | commit env content => exact h.commit env content
  | newTempTag value => exact h.newTempTag value fun tag htag => .inl htag
  | setTag name value =>
    dsimp only [step]
    split
    · exact h
    · exact h.sameTags ⟨rfl, rfl⟩
  | deleteTag name => exact h.sameTags ⟨rfl, rfl⟩
  | release id =>
    have hmem : ∀ tag ∈ s.held.filter (·.id ≠ id), tag ∈ s.held ∧ tag.id ≠ id := by
      intro tag htag
      simpa using htag
    refine ⟨?_, ?_, h.claim, ?_⟩
    · intro tag htag
      obtain ⟨hheld, hne⟩ := hmem tag htag
      dsimp only [step]
      rw [get?_delete, if_neg hne]
      exact h.tagged tag hheld
    · exact fun tag htag => h.issued tag (hmem tag htag).1
    · exact fun tag htag => h.unclaimed tag (hmem tag htag).1

end

/-! ## When a blob is lost -/

lemma safe_removed_iff (hs : s.Safe) {store : FSState} {gc : GCPhase}
    (hcomplete : ∀ hash, store.complete hash ↔ s.store.complete hash ∧ hash.string ≠ name) :
    Safe { s with store := store, gc := gc } ↔ ∀ tag ∈ s.held, tag.value.hash.string ≠ name := by
  constructor
  · exact fun h tag htag => ((hcomplete _).mp (h tag htag)).2
  · exact fun h tag htag => (hcomplete _).mpr ⟨hs tag htag, h tag htag⟩

lemma complete_removeData_iff (store : FSState) (name : String) (hash : Hash) :
    FSState.complete { store with data := store.data.delete name } hash ↔
      store.complete hash ∧ hash.string ≠ name := by
  simp only [FSState.complete_iff, mem_keys_delete]
  tauto

lemma complete_removeOutboard_iff (store : FSState) (name : String) (hash : Hash) :
    FSState.complete { store with bao := store.bao.delete name } hash ↔
      store.complete hash ∧ hash.string ≠ name := by
  simp only [FSState.complete_iff, mem_keys_delete]
  tauto

lemma timely_iff (h : s.Inv) (hname : s.removing = some name) :
    s.Timely (.gc none) ↔ ∀ tag ∈ s.held, tag.value.hash.string ≠ name := by
  unfold Timely
  rw [hname]
  constructor
  · intro htimely tag htag heq
    rcases Nat.lt_or_ge s.claimTag tag.id with hlate | hearly
    · exact htimely rfl tag htag hlate (congrArg some heq.symm)
    · exact h.unclaimed tag htag hearly (hname.trans (congrArg some heq.symm))
  · exact fun hne _ tag htag _ heq => hne tag htag (Option.some.inj heq).symm

lemma sweep_same (entry : String × DirEntry) (entries : List (String × DirEntry))
    (live : GoSet Hash) : (s.sweep base32 entry entries live).store = s.store ∧
      (s.sweep base32 entry entries live).held = s.held := by
  unfold Race.sweep
  split
  · exact ⟨rfl, rfl⟩
  · split
    · exact ⟨rfl, rfl⟩
    · split <;> exact ⟨rfl, rfl⟩

lemma collect_same (base32 : String → Option Bytes) (hnone : s.removing = none) :
    (s.collect base32).store = s.store ∧ (s.collect base32).held = s.held := by
  unfold Race.collect
  split
  · exact ⟨rfl, rfl⟩
  · exact ⟨rfl, rfl⟩
  · exact ⟨rfl, rfl⟩
  · exact ⟨rfl, rfl⟩
  · exact sweep_same _ _ _
  case h_6 hgc =>
    rw [removing, hgc] at hnone
    cases hnone
  case h_7 hgc =>
    rw [removing, hgc] at hnone
    cases hnone
  · exact ⟨rfl, rfl⟩

lemma safe_collect_iff (h : s.Inv) (hs : s.Safe) : (s.collect base32).Safe ↔ s.Timely (.gc none) := by
  cases hremoving : s.removing with
  | none =>
    have htimely : s.Timely (.gc none) := by
      intro _ tag _ _ hname
      cases hremoving.symm.trans hname
    obtain ⟨hstore, hheld⟩ := collect_same base32 hremoving
    refine iff_of_true ?_ htimely
    rw [Safe, hstore, hheld]
    exact hs
  | some name =>
    rw [timely_iff h hremoving]
    unfold removing at hremoving
    split at hremoving
    case h_1 hgc =>
      rw [← Option.some.inj hremoving, Race.collect, hgc]
      exact safe_removed_iff hs (complete_removeData_iff s.store _)
    case h_2 hgc =>
      rw [← Option.some.inj hremoving, Race.collect, hgc]
      exact safe_removed_iff hs (complete_removeOutboard_iff s.store _)
    case h_3 => cases hremoving

lemma Safe.commit (hs : s.Safe) (env : FileEnv) (content : Bytes) :
    (s.step base32 encode (.commit env content)).Safe := by
  have hkeeps : KeepsBlobs s.store (stateOf (finishImportLocked encode env content true s.store)) :=
    fun h => keeps_finishImportLocked content h true s.store
  dsimp only [step]
  rcases finishImportLocked_cases encode env content s.store with ⟨e, store, hrun, -⟩ |
    ⟨store, -, hcomplete, hrun⟩ <;> rw [hrun] at hkeeps ⊢
  · exact fun tag htag => hkeeps _ (hs tag htag)
  · exact forall_mem_cons.mpr ⟨hcomplete, fun tag htag => hkeeps _ (hs tag htag)⟩

lemma safe_step_iff (h : s.Inv) (hs : s.Safe) (a : RaceStep) :
    (s.step base32 encode a).Safe ↔ s.Timely a := by
  have hother : a ≠ .gc none → s.Timely a := fun hne heq => absurd heq hne
  cases a with
  | gc err =>
    cases err with
    | none => exact safe_collect_iff h hs
    | some err =>
      refine iff_of_true ?_ (hother (by simp))
      dsimp only [step]
      split
      case isTrue => exact hs
      case isFalse hfail =>
        have hremoving : s.removing = none := by
          unfold removing
          split <;> simp_all [GCPhase.canFail]
        obtain ⟨hstore, hheld⟩ := collect_same base32 hremoving
        rw [Safe, hstore, hheld]
        exact hs
  | commit env content => exact iff_of_true (hs.commit env content) (hother (by simp))
  | setTag name value =>
    refine iff_of_true ?_ (hother (by simp))
    dsimp only [step]
    split <;> exact hs
  | release id =>
    refine iff_of_true ?_ (hother (by simp))
    exact fun tag htag => hs tag (mem_of_mem_filter htag)
  | _ => exact iff_of_true hs (hother (by simp))

/-- **A committed blob survives a collection exactly when none of its files is removed while the tag of
a commit that came after the claim is held.** -/
theorem committed_blob_survives_iff (base32 : String → Option Bytes)
    (encode : Bytes → Bytes × Hash) (store : FSState) (steps : List RaceStep) :
    EachState (step base32 encode) Safe (start store) steps ↔
      EachStep (step base32 encode) Timely (start store) steps := by
  apply eachState_iff_of_inv Inv
  · exact fun s a h => step_inv h a
  · exact fun s a h hs => safe_step_iff h hs a
  · exact ⟨by simp [start], by simp [start], Nat.zero_le _, by simp [start]⟩
  · exact fun tag htag => absurd htag (by simp [start])

def lateCommit : List RaceStep :=
  [.gc none, .gc none, .gc none, .commit (fun _ => none) [97, 98, 99], .gc none]

/-- The blob was there without a tag; the commit finds it, tags it and returns; the collector removes
its data. -/
theorem lateCommit_loses_blob :
    ¬ EachState (step (fun _ => none) abcEncode) Safe (start oneBlob) lateCommit := by
  intro h
  have hlast := h lateCommit prefix_rfl ⟨1, ⟨abcRoot, .raw⟩⟩ (by decide)
  exact absurd hlast (by decide)

end Race

end Iroh.Blobs
