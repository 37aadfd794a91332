import Iroh.Common.Runs
import Iroh.Blobs.FSStore

/-!
# Storing blobs in the filesystem store

Reference: `blobs/fsstore.go`, `Add`, `Commit` and `writeFileAtomic`; `blobs/import.go`.

A blob is two files, the data and the outboard, installed one after the other.  If the second fails the
first is removed again.  `finishImport` installs only what is not there; `Add` installs always, so its
rollback removes a data file that was there before (`failed_call_keeps_blobs_iff`).

A file that is being written has a temporary name until it is renamed.  Such names never are names of
hashes, so the directories of the model hold installed files only.
-/

namespace Iroh.Blobs

/-! ## Operations that can fail -/

inductive FileOp where
  | writeData
  | writeOutboard
  | openImport
  | createImportData
  | copyImportData
  | rewindImportData
  | closeLink
  | removeLink
  | link
  | openLinked
  | statImportData
  | createImportOutboard
  | encodeImportOutboard
  | syncImportData
  | syncImportOutboard
  | closeImportData
  | closeImportOutboard
  | installImportData
  | installImportOutboard
  | syncBlobData
  | rewindBlobData
  /-- The removal of the data file, whose own failure is ignored. -/
  | removeData
deriving DecidableEq

abbrev FileEnv := FileOp → Option String

inductive StoreError where
  | file (op : FileOp) (err : String)
  | emptyImportPath
  | unknownImportMode (mode : ℕ)
  | commitAfterCommit
deriving DecidableEq

/-! ## The calls -/

/-- An `FSStore` with the counter of its temp tags. -/
structure FSState extends FSStore where
  nextTag : ℕ

abbrev Importer := EStateM StoreError FSState

inductive ImportMode where
  | copy
  | tryReference
  | other (mode : ℕ)
deriving DecidableEq

/-- `tags.go::TempTag`, by its fields. -/
structure TempTag where
  id : ℕ
  value : HashAndFormat
deriving DecidableEq

namespace FSState

/-- `fileExists` of both files of the blob. -/
def complete (s : FSState) (hash : Hash) : Bool :=
  s.data.contains hash.string && s.bao.contains hash.string

def putData (s : FSState) (hash : Hash) (content : Bytes) : FSState :=
  { s with data := s.data.set hash.string (.file content true) }

def putOutboard (s : FSState) (hash : Hash) (outboard : Bytes) : FSState :=
  { s with bao := s.bao.set hash.string (.file outboard true) }

/-- `os.Remove(s.dataPath(hash))`, which may fail. -/
def removeData (s : FSState) (hash : Hash) (err : Option String) : FSState :=
  if err.isNone then { s with data := s.data.delete hash.string } else s

/-- `newTempTagLocked`. -/
def newTempTag (s : FSState) (value : HashAndFormat) : FSState × TempTag :=
  ({ s with nextTag := s.nextTag + 1, temp := s.temp.set (s.nextTag + 1) value },
    ⟨s.nextTag + 1, value⟩)

end FSState

def Importer.check (env : FileEnv) (op : FileOp) : Importer Unit :=
  match env op with
  | some err => throw (.file op err)
  | none => pure ()

section

variable (encode : Bytes → Bytes × Hash) (env : FileEnv)

def installOutboard (op : FileOp) (hash : Hash) (outboard : Bytes) : Importer Unit :=
  match env op with
  | some err => do
      modify fun s => s.removeData hash (env .removeData)
      throw (.file op err)
  | none => modify fun s => s.putOutboard hash outboard

def add (content : Bytes) : Importer Hash := do
  let hash := (encode content).2
  Importer.check env .writeData
  modify fun s => s.putData hash content
  installOutboard env .writeOutboard hash (encode content).1
  return hash

/-- The two renames of `finishImport`, which a complete blob does without. -/
def installImport (hash : Hash) (content outboard : Bytes) : Importer Unit := do
  if (← get).complete hash then return
  else
    Importer.check env .installImportData
    modify fun s => s.putData hash content
    installOutboard env .installImportOutboard hash outboard

/-- `finishImport` under the lock. -/
def finishImportLocked (content : Bytes) (protect : Bool) : Importer (Hash × Option TempTag) := do
  let hash := (encode content).2
  installImport env hash content (encode content).1
  if protect then
    let tag ← modifyGet fun s => (s.newTempTag ⟨hash, .raw⟩).swap
    return (hash, some tag)
  else return (hash, none)

/-- `finishImport`, with the bytes of the temporary data file. -/
def finishImport (content : Bytes) (syncData protect : Bool) :
    Importer (Hash × Option TempTag) := do
  Importer.check env .statImportData
  Importer.check env .createImportOutboard
  Importer.check env .encodeImportOutboard
  if syncData then Importer.check env .syncImportData
  Importer.check env .syncImportOutboard
  Importer.check env .closeImportData
  Importer.check env .closeImportOutboard
  finishImportLocked encode env content protect

def importFileCopy (content : Bytes) : Importer Hash := do
  Importer.check env .openImport
  Importer.check env .createImportData
  Importer.check env .copyImportData
  Importer.check env .rewindImportData
  let (hash, _) ← finishImport encode env content true false
  return hash

def importFileLink (content : Bytes) : Importer Hash := do
  Importer.check env .createImportData
  Importer.check env .closeLink
  Importer.check env .removeLink
  Importer.check env .link
  Importer.check env .openLinked
  let (hash, _) ← finishImport encode env content false false
  return hash

/-- `ImportFile`.  The file is read anew for each of the two ways to import it. -/
def importFile (linkEnv : FileEnv) (path : String) (mode : ImportMode) (linked copied : Bytes) :
    Importer Hash :=
  if path = "" then throw .emptyImportPath
  else match mode with
    | .copy => importFileCopy encode env copied
    | .tryReference => fun s => match importFileLink encode linkEnv linked s with
        | .ok hash s' => .ok hash s'
        | .error _ s' => importFileCopy encode env copied s'
    | .other mode => throw (.unknownImportMode mode)

def commit (done : Bool) (content : Bytes) : Importer (Option TempTag) := do
  if done then throw .commitAfterCommit
  Importer.check env .syncBlobData
  Importer.check env .rewindBlobData
  let (_, tag) ← finishImport encode env content false true
  return tag

end
/-! ## What stays complete -/

namespace FSState

variable {s : FSState} {h hash : Hash}

lemma complete_iff : s.complete h ↔ h.string ∈ s.data.keys ∧ h.string ∈ s.bao.keys := by
  simp [complete]

lemma complete_congr (heq : h.string = hash.string) : s.complete h = s.complete hash := by
  rw [complete, heq, complete]

lemma complete_putData (hc : s.complete h) (content : Bytes) : (s.putData hash content).complete h := by
  rw [complete_iff] at hc ⊢
  exact ⟨GoMap.mem_keys_set.mpr (.inr hc.1), hc.2⟩

lemma complete_putOutboard (hc : s.complete h) (outboard : Bytes) :
    (s.putOutboard hash outboard).complete h := by
  rw [complete_iff] at hc ⊢
  exact ⟨hc.1, GoMap.mem_keys_set.mpr (.inr hc.2)⟩

lemma complete_removeData (hc : s.complete h) (hne : h.string ≠ hash.string) (err : Option String) :
    (s.removeData hash err).complete h := by
  unfold removeData
  split
  · simpa [complete_iff, hne] using hc
  · exact hc

end FSState

def KeepsBlobs (s s' : FSState) : Prop := ∀ h, s.complete h → s'.complete h

section

variable {encode : Bytes → Bytes × Hash} {env : FileEnv} {P : FSState → Prop} {h hash : Hash}

lemma keeps_check {β : Type} {f : Unit → Importer β} (op : FileOp) (hf : Keeps P (f ())) :
    Keeps P (Importer.check env op >>= f) := by
  refine .bind ?_ fun _ => hf
  unfold Importer.check
  split
  · exact .throw _
  · exact .pure _

lemma keeps_installOutboard {outboard : Bytes} (op : FileOp)
    (hremove : ∀ s, P s → P (s.removeData hash (env .removeData)))
    (hput : ∀ s, P s → P (s.putOutboard hash outboard)) :
    Keeps P (installOutboard env op hash outboard) := by
  unfold installOutboard
  split
  · exact .bind (.modify hremove) fun _ => .throw _
  · exact .modify hput

lemma keeps_installImport (h hash : Hash) (content outboard : Bytes) :
    Keeps (fun s => s.complete h = true) (installImport env hash content outboard) := by
  refine .get_bind fun s hs => ?_
  split
  case isTrue => exact .pure _
  case isFalse hincomplete =>
    have hne : h.string ≠ hash.string := fun heq => hincomplete (FSState.complete_congr heq ▸ hs)
    refine keeps_check _ (.bind (.modify fun s hs => FSState.complete_putData hs content) fun _ => ?_)
    exact keeps_installOutboard _ (fun s hs => FSState.complete_removeData hs hne _)
      fun s hs => FSState.complete_putOutboard hs outboard

variable (content : Bytes)

lemma keeps_finishImportLocked (h : Hash) (protect : Bool) :
    Keeps (fun s => s.complete h = true) (finishImportLocked encode env content protect) := by
  refine (keeps_installImport h _ _ _).bind fun _ => ?_
  split
  · exact fun s hs => hs
  · exact .pure _

def SameTags (s s' : FSState) : Prop := s'.temp = s.temp ∧ s'.nextTag = s.nextTag

lemma installImport_sameTags (hash : Hash) (content outboard : Bytes) (s : FSState) :
    Keeps (SameTags s) (installImport env hash content outboard) := by
  refine .get_bind fun _ _ => ?_
  split
  · exact .pure _
  · refine keeps_check _ (.bind (.modify fun _ h => h) fun _ =>
      keeps_installOutboard _ (fun s₁ h => ?_) fun _ h => h)
    unfold FSState.removeData
    split <;> exact h

lemma installImport_complete {hash : Hash} {content outboard : Bytes} {s s' : FSState}
    (h : installImport env hash content outboard s = .ok () s') : s'.complete hash := by
  obtain ⟨s₁, s₂, hget, hrest⟩ := bind_eq_ok.mp h
  obtain ⟨rfl, rfl⟩ : s = s₁ ∧ s = s₂ := by
    cases hget
    exact ⟨rfl, rfl⟩
  split at hrest
  case isTrue hcomplete =>
    obtain ⟨-, rfl⟩ := pure_eq_ok.mp hrest
    exact hcomplete
  case isFalse =>
    obtain ⟨_, s₃, -, hrest⟩ := bind_eq_ok.mp hrest
    obtain ⟨_, s₄, hput, hrest⟩ := bind_eq_ok.mp hrest
    cases hput
    unfold installOutboard at hrest
    cases hout : env .installImportOutboard with
    | some err =>
      rw [hout] at hrest
      cases hrest
    | none =>
      rw [hout] at hrest
      cases hrest
      simp [FSState.complete_iff, FSState.putOutboard, FSState.putData]

lemma finishImportLocked_cases (encode : Bytes → Bytes × Hash) (env : FileEnv) (content : Bytes)
    (s : FSState) :
    (∃ e s', finishImportLocked encode env content true s = .error e s' ∧ SameTags s s') ∨
      ∃ s₁, SameTags s s₁ ∧ s₁.complete (encode content).2 ∧
        finishImportLocked encode env content true s =
          .ok ((encode content).2, some (s₁.newTempTag ⟨(encode content).2, .raw⟩).2)
            (s₁.newTempTag ⟨(encode content).2, .raw⟩).1 := by
  have htags : SameTags s (stateOf (installImport env (encode content).2 content
      (encode content).1 s)) := installImport_sameTags _ _ _ s s ⟨rfl, rfl⟩
  cases hrun : installImport env (encode content).2 content (encode content).1 s with
  | ok u s₁ =>
    rw [hrun] at htags
    refine .inr ⟨s₁, htags, installImport_complete hrun, ?_⟩
    exact bind_of_ok hrun _
  | error e s₁ =>
    rw [hrun] at htags
    exact .inl ⟨e, s₁, bind_of_error hrun _, htags⟩

lemma keeps_finishImport (h : Hash) (syncData protect : Bool) :
    Keeps (fun s => s.complete h = true) (finishImport encode env content syncData protect) := by
  have hlocked : Keeps _ (finishImportLocked encode env content protect) :=
    keeps_finishImportLocked content h protect
  refine keeps_check _ (keeps_check _ (keeps_check _ ?_))
  split
  · exact keeps_check _ (keeps_check _ (keeps_check _ (keeps_check _ hlocked)))
  · exact keeps_check _ (keeps_check _ (keeps_check _ hlocked))

lemma keeps_importFileCopy (h : Hash) :
    Keeps (fun s => s.complete h = true) (importFileCopy encode env content) :=
  keeps_check _ (keeps_check _ (keeps_check _ (keeps_check _
    ((keeps_finishImport content h true false).bind fun _ => .pure _))))

lemma keeps_importFileLink (h : Hash) :
    Keeps (fun s => s.complete h = true) (importFileLink encode env content) :=
  keeps_check _ (keeps_check _ (keeps_check _ (keeps_check _ (keeps_check _
    ((keeps_finishImport content h false false).bind fun _ => .pure _)))))

lemma keeps_importFile (linkEnv : FileEnv) (path : String) (mode : ImportMode)
    (linked copied : Bytes) (h : Hash) : Keeps (fun s => s.complete h = true)
      (importFile encode env linkEnv path mode linked copied) := by
  unfold importFile
  split
  · exact .throw _
  · split
    · exact keeps_importFileCopy copied h
    · -- the copy starts from what the attempt to link has left
      intro s hs
      have hlink : (stateOf (importFileLink encode linkEnv linked s)).complete h :=
        keeps_importFileLink linked h s hs
      dsimp only
      split
      case h_1 hash s' hrun =>
        rw [hrun] at hlink
        exact hlink
      case h_2 err s' hrun =>
        rw [hrun] at hlink
        exact keeps_importFileCopy copied h s' hlink
    · exact .throw _

lemma keeps_commit (done : Bool) (content : Bytes) (h : Hash) :
    Keeps (fun s => s.complete h = true) (commit encode env done content) := by
  unfold commit
  split
  · exact .throw _
  · exact keeps_check _ (keeps_check _ ((keeps_finishImport content h false true).bind fun _ => .pure _))

lemma add_eq (s : FSState) : add encode env content s = match env .writeData, env .writeOutboard with
      | some err, _ => .error (.file .writeData err) s
      | none, some err => .error (.file .writeOutboard err)
          ((s.putData (encode content).2 content).removeData (encode content).2 (env .removeData))
      | none, none => .ok (encode content).2
          ((s.putData (encode content).2 content).putOutboard (encode content).2
            (encode content).1) := by
  unfold add Importer.check installOutboard
  cases env .writeData with
  | some err => rfl
  | none =>
    cases env .writeOutboard with
    | _ => rfl

lemma rollback_keepsBlobs_iff (hash : Hash) (content : Bytes) (err : Option String) (s : FSState) :
    KeepsBlobs s ((s.putData hash content).removeData hash err) ↔ (s.complete hash → err.isSome) := by
  cases err with
  | some err =>
    refine iff_of_true ?_ (fun _ => rfl)
    exact fun h hcomplete => FSState.complete_putData hcomplete content
  | none =>
    constructor
    · intro hkeeps hcomplete
      have hafter := (FSState.complete_iff.mp (hkeeps hash hcomplete)).1
      exact absurd rfl (GoMap.mem_keys_delete.mp hafter).1
    · intro hlost h hcomplete
      have hne : h.string ≠ hash.string := by
        intro heq
        cases hlost (FSState.complete_congr heq ▸ hcomplete)
      exact FSState.complete_removeData (FSState.complete_putData hcomplete content) hne none

end

/-! ## Sequences of calls -/

inductive StoreCall where
  | add (env : FileEnv) (content : Bytes)
  | importFile (env linkEnv : FileEnv) (path : String) (mode : ImportMode) (linked copied : Bytes)
  | commit (env : FileEnv) (done : Bool) (content : Bytes)

def outcome {α : Type} (r : EStateM.Result StoreError FSState α) : FSState × Option StoreError :=
  match r with
  | .ok _ s => (s, none)
  | .error e s => (s, some e)

lemma outcome_state {α : Type} (r : EStateM.Result StoreError FSState α) :
    (outcome r).1 = stateOf r := by
  cases r <;> rfl

section

variable (encode : Bytes → Bytes × Hash)

def FSState.run (s : FSState) : StoreCall → FSState × Option StoreError
  | .add env content => outcome (add encode env content s)
  | .importFile env linkEnv path mode linked copied =>
    outcome (importFile encode env linkEnv path mode linked copied s)
  | .commit env done content => outcome (commit encode env done content s)

def FSState.step (s : FSState) (c : StoreCall) : FSState := (s.run encode c).1

def FailsSafe (s : FSState) (c : StoreCall) : Prop :=
  (s.run encode c).2 ≠ none → KeepsBlobs s (s.step encode c)

/-- Not an `Add` of a complete blob that writes the data, fails to write the outboard and removes the
data. -/
def Spares (s : FSState) : StoreCall → Prop
  | .add env content => s.complete (encode content).2 → env .writeData = none →
      (env .writeOutboard).isSome → (env .removeData).isSome
  | _ => True

lemma failsSafe_iff (s : FSState) (c : StoreCall) : FailsSafe encode s c ↔ Spares encode s c := by
  unfold FailsSafe FSState.step
  cases c with
  | add env content =>
    dsimp only [FSState.run, Spares]
    rw [add_eq]
    cases hdata : env .writeData with
    | some err =>
      refine iff_of_true (fun _ _ => id) ?_
      intro _ hnone
      cases hnone
    | none =>
      cases hout : env .writeOutboard with
      | none =>
        refine iff_of_true (fun herr => absurd rfl herr) ?_
        intro _ _ hsome
        cases hsome
      | some err =>
        have hrollback := rollback_keepsBlobs_iff (encode content).2 content (env .removeData) s
        simpa [outcome] using hrollback
  | importFile env linkEnv path mode linked copied =>
    refine iff_of_true (fun _ => ?_) trivial
    dsimp only [FSState.run]
    rw [outcome_state]
    exact fun h => keeps_importFile linkEnv path mode linked copied h s
  | commit env done content =>
    refine iff_of_true (fun _ => ?_) trivial
    dsimp only [FSState.run]
    rw [outcome_state]
    exact fun h => keeps_commit done content h s

/-- **Failed calls lose no blob exactly when no `Add` of a complete blob is rolled back.** -/
theorem failed_call_keeps_blobs_iff (s : FSState) (calls : List StoreCall) :
    EachStep (FSState.step encode) (FailsSafe encode) s calls ↔
      EachStep (FSState.step encode) (Spares encode) s calls := by
  unfold EachStep
  simp only [failsSafe_iff]

end

/-- Outboard and hash of `abc`, and of no bytes: an outboard is the length alone. -/
def abcEncode (content : Bytes) : Bytes × Hash :=
  if content = [97, 98, 99] then ([3, 0, 0, 0, 0, 0, 0, 0], abcRoot) else (List.replicate 8 0, emptyHash)

def oneBlob : FSState where
  data := .ofList [(abcRoot.string, .file [97, 98, 99] true)]
  bao := .ofList [(abcRoot.string, .file [3, 0, 0, 0, 0, 0, 0, 0] true)]
  tags := .empty
  temp := .empty
  nextTag := 0

/-- Adding it again, when the outboard cannot be written, loses it. -/
theorem add_again_loses_blob :
    ¬ EachStep (FSState.step abcEncode) (FailsSafe abcEncode) oneBlob
      [.add (fun op => if op = .writeOutboard then some "disk full" else none) [97, 98, 99]] := by
  intro h
  have hkeeps := h [] _ List.prefix_rfl (by simp [FSState.run, add_eq, outcome])
  have hcomplete := hkeeps abcRoot (by decide)
  exact absurd hcomplete (by decide)

end Iroh.Blobs
