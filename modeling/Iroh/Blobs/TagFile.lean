import Iroh.Common.Runs
import Iroh.Common.Utf8
import Iroh.Blobs.FSStore

/-!
# The tags file

Reference: `blobs/tags.go`, `SetTag` and `DeleteTag`; `blobs/fsstore.go`, `loadTags` and
`saveTagsLocked`.

The tags are a map in memory and a JSON file.  Both calls change the map first and write the whole map after;
when the write fails the map stays changed.  And JSON is UTF-8: a name that is not comes back from the file as
another name.

A tag name is a Go string, so any bytes.  The file is what `loadTags` would make of it.
-/

namespace Iroh.Blobs

open List GoMap

/-- The persistent tags of an `FSStore`, by name. -/
abbrev TagMap := GoMap Bytes HashAndFormat

/-- A tags file, as `loadTags` reads it.  What comes out of JSON is UTF-8. -/
structure TagsFile where
  tags : TagMap
  valid : ∀ name ∈ tags.keys, Utf8.Valid name

structure TagStore where
  tags : TagMap
  file : TagsFile

inductive TagError where
  | emptyName
  | write (err : String)
deriving DecidableEq

/-- `json.Unmarshal` of `json.MarshalIndent`: the names are written in order, each as valid UTF-8, and
of two that are written alike the later one counts. -/
def readBack (tags : TagMap) : TagsFile where
  tags := .ofList ((tags.toList.mergeSort fun a b => a.1 ≤ b.1).map fun e => (Utf8.toValid e.1, e.2))
  valid := by
    intro name hname
    rw [GoMap.mem_keys_ofList, List.map_map] at hname
    obtain ⟨e, -, rfl⟩ := List.mem_map.mp hname
    exact Utf8.valid_toValid e.1

namespace TagStore

/-- `saveTagsLocked`, where `err` is the outcome of `writeFileAtomic`. -/
def saveTags (s : TagStore) (err : Option String) : TagStore × Option TagError :=
  match err with
  | none => ({ s with file := readBack s.tags }, none)
  | some err => (s, some (.write err))

def setTag (s : TagStore) (name : Bytes) (value : HashAndFormat) (err : Option String) :
    TagStore × Option TagError :=
  if name = [] then (s, some .emptyName)
  else { s with tags := s.tags.set name value }.saveTags err

def deleteTag (s : TagStore) (name : Bytes) (err : Option String) : TagStore × Option TagError :=
  if s.tags.contains name then { s with tags := s.tags.delete name }.saveTags err
  else (s, none)

end TagStore

inductive TagCall where
  | setTag (name : Bytes) (value : HashAndFormat) (err : Option String)
  | deleteTag (name : Bytes) (err : Option String)
deriving DecidableEq

namespace TagStore

def call (s : TagStore) : TagCall → TagStore × Option TagError
  | .setTag name value err => s.setTag name value err
  | .deleteTag name err => s.deleteTag name err

def step (s : TagStore) (c : TagCall) : TagStore := (s.call c).1

/-- `NewFSStore`, as far as the tags go. -/
def opened (file : TagsFile) : TagStore := ⟨file.tags, file⟩

/-! ## What the file says -/

def Matches (s : TagStore) : Prop := ∀ name, s.tags.get? name = s.file.tags.get? name

lemma get?_readBack {tags : TagMap} (hvalid : ∀ name ∈ tags.keys, Utf8.Valid name) (name : Bytes) :
    (readBack tags).tags.get? name = tags.get? name := by
  have hsame : ((tags.toList.mergeSort fun a b => a.1 ≤ b.1).map fun e => (Utf8.toValid e.1, e.2)) =
      tags.toList.mergeSort fun a b => a.1 ≤ b.1 := by
    refine (map_congr_left ?_).trans (map_id _)
    intro e he
    have hkey : e.1 ∈ tags.keys := mem_map_of_mem (mem_mergeSort.mp he)
    rw [Utf8.toValid_of_valid (hvalid e.1 hkey)]
    rfl
  have hperm := mergeSort_perm tags.toList fun a b => a.1 ≤ b.1
  have hnodup : ((tags.toList.mergeSort fun a b => a.1 ≤ b.1).map Prod.fst).Nodup :=
    (hperm.map Prod.fst).nodup_iff.mpr tags.nodup
  refine Option.ext fun value => ?_
  simp only [readBack]
  rw [hsame, get?_ofList hnodup, get?_eq_some, hperm.mem_iff]

theorem matches_readBack_iff {tags : TagMap} :
    Matches ⟨tags, readBack tags⟩ ↔ ∀ name ∈ tags.keys, Utf8.Valid name := by
  constructor
  · intro h name hname
    obtain ⟨value, hvalue⟩ := mem_keys_iff.mp hname
    apply (readBack tags).valid
    exact mem_keys_iff.mpr ⟨value, (h name).symm.trans hvalue⟩
  · intro h name
    exact (get?_readBack h name).symm

variable {s : TagStore}

lemma Matches.valid (h : s.Matches) : ∀ name ∈ s.tags.keys, Utf8.Valid name := by
  intro name hname
  obtain ⟨value, hvalue⟩ := mem_keys_iff.mp hname
  apply s.file.valid
  exact mem_keys_iff.mpr ⟨value, (h name).symm.trans hvalue⟩

/-! ## Runs -/

def FailsClean (s : TagStore) (c : TagCall) : Prop :=
  (s.call c).2 ≠ none → ∀ name, (s.step c).tags.get? name = s.tags.get? name

def Sound (s : TagStore) : TagCall → Prop
  | .setTag name _ none => name = [] ∨ Utf8.Valid name
  | .setTag name value (some _) => name = [] ∨ s.tags.get? name = some value
  | .deleteTag _ none => True
  | .deleteTag name (some _) => s.tags.get? name = none

lemma matches_unsaved_iff (h : s.Matches) (tags : TagMap) :
    Matches ⟨tags, s.file⟩ ↔ ∀ name, tags.get? name = s.tags.get? name := by
  unfold Matches at h ⊢
  simp [h]

lemma matches_setTag_iff (h : s.Matches) (name : Bytes) (value : HashAndFormat) (err : Option String) :
    (s.setTag name value err).1.Matches ↔ s.Sound (.setTag name value err) := by
  unfold setTag
  split
  next hempty => cases err <;> exact iff_of_true h (.inl hempty)
  next hempty =>
    cases err with
    | none =>
      simp only [saveTags, Sound, matches_readBack_iff, mem_keys_set, hempty, false_or]
      constructor
      · exact fun hvalid => hvalid name (.inl rfl)
      · rintro hname other (rfl | hother)
        · exact hname
        · exact h.valid other hother
    | some err =>
      simp only [saveTags, Sound, matches_unsaved_iff h, get?_set, hempty, false_or]
      constructor
      · intro hsame
        simpa using (hsame name).symm
      · intro hname other
        split
        case isTrue hother => rw [hother, hname]
        case isFalse => rfl

lemma matches_deleteTag_iff (h : s.Matches) (name : Bytes) (err : Option String) :
    (s.deleteTag name err).1.Matches ↔ s.Sound (.deleteTag name err) := by
  unfold deleteTag
  split
  next hthere =>
    obtain ⟨value, hvalue⟩ := mem_keys_iff.mp (contains_iff.mp hthere)
    cases err with
    | none =>
      simp only [saveTags, Sound, matches_readBack_iff, mem_keys_delete, iff_true]
      exact fun other hother => h.valid other hother.2
    | some err =>
      simp only [saveTags, Sound, matches_unsaved_iff h, hvalue]
      apply iff_of_false
      · intro hsame
        simpa [hvalue] using hsame name
      · exact Option.some_ne_none value
  next hthere =>
    have hnone : s.tags.get? name = none := by
      simpa [GoMap.contains] using hthere
    cases err with
    | none => exact iff_of_true h trivial
    | some err => exact iff_of_true h hnone

lemma matches_step_iff (h : s.Matches) (c : TagCall) : (s.step c).Matches ↔ s.Sound c := by
  cases c with
  | setTag name value err => exact matches_setTag_iff h name value err
  | deleteTag name err => exact matches_deleteTag_iff h name err

lemma saveTags_file (h : (s.saveTags err).2 ≠ none) : (s.saveTags err).1.file = s.file := by
  cases err with
  | none => exact absurd rfl h
  | some err => rfl

lemma file_of_error (h : (s.call c).2 ≠ none) : (s.step c).file = s.file := by
  cases c with
  | setTag name value err =>
    dsimp only [step, call, setTag] at h ⊢
    by_cases hempty : name = []
    · rw [if_pos hempty]
    · rw [if_neg hempty] at h ⊢
      exact saveTags_file h
  | deleteTag name err =>
    dsimp only [step, call, deleteTag] at h ⊢
    by_cases hthere : s.tags.contains name = true
    · rw [if_pos hthere] at h ⊢
      exact saveTags_file h
    · rw [if_neg hthere] at h
      exact absurd rfl h

/-- **The map stays the one in the file exactly when every call is sound.** -/
theorem tags_match_file_iff (file : TagsFile) (calls : List TagCall) :
    (EachState step Matches (opened file) calls ∧ EachStep step FailsClean (opened file) calls) ↔
      EachStep step Sound (opened file) calls := by
  have hruns : EachState step Matches (opened file) calls ↔ EachStep step Sound (opened file) calls := by
    apply eachState_iff_of_good
    · exact fun s c h => matches_step_iff h c
    · exact fun _ => rfl
  rw [hruns]
  refine and_iff_left_of_imp fun hsound pre c hpre herr name => ?_
  have hstates := hruns.mpr hsound
  have hbefore := hstates pre ((prefix_append pre [c]).trans hpre)
  have hafter := hstates (pre ++ [c]) hpre
  rw [foldl_append] at hafter
  calc (step (pre.foldl step (opened file)) c).tags.get? name
      = (step (pre.foldl step (opened file)) c).file.tags.get? name := hafter name
    _ = (pre.foldl step (opened file)).file.tags.get? name := by rw [file_of_error herr]
    _ = (pre.foldl step (opened file)).tags.get? name := (hbefore name).symm

/-- A failed `SetTag` on a store without tags leaves a tag that the file does not have. -/
theorem setTag_failed_write_keeps_tag : ¬ EachState step Matches (opened ⟨.empty, by simp⟩)
      [.setTag [97] ⟨emptyHash, .raw⟩ (some "disk full")] := by
  intro h
  have hafter := h [.setTag [97] ⟨emptyHash, .raw⟩ (some "disk full")] prefix_rfl [97]
  exact absurd hafter (by decide)

end TagStore

end Iroh.Blobs
