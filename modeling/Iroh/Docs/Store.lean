import Mathlib.Data.List.Sort
import Iroh.Common.GoMap
import Iroh.Docs.Ranger

/-!
# The in-memory document store

Reference: `docs/store.go`.

`MemoryStore` maps identifier bytes to entries.  `putEntry` is the one function that writes the
map: it drops an entry that an ancestor key shadows and deletes the descendants the new entry
shadows.  `processMessage` answers one reconciliation message.

What the code reads from outside is explicit: the clock and the outcomes of `saveFile` are streams
in `Env`, `validate`, `contentStatus` and BLAKE3 are functions there.  The calls of `onInsert` and
the events handed to subscribers are recorded in order.
-/

namespace Iroh.Docs

/-- A peer's public key (`key.EndpointID`). -/
abbrev EndpointID := Bytes32

structure SaveError where
  text : String
deriving DecidableEq

inductive InsertOriginKind where
  | insertOriginLocal
  | insertOriginRemote
deriving DecidableEq

structure InsertOrigin where
  kind : InsertOriginKind
  fromPeer : EndpointID
  contentStatus : ContentStatus
deriving DecidableEq

def InsertOrigin.zero : InsertOrigin := ⟨.insertOriginLocal, Vector.replicate 32 0, .complete⟩

structure InsertOutcome where
  inserted : Bool
  removed : ℕ
  err : Option SaveError
deriving DecidableEq

/-- `watcher.go::StoreEvent`, as far as inserts and saves produce it. -/
inductive StoreEvent where
  | insert (kind : InsertOriginKind) (sequence : UInt64) (entry : SignedEntry) (removed : ℕ)
      (fromPeer : EndpointID) (contentStatus : ContentStatus)
  | lagged (sequence : UInt64)
deriving DecidableEq

/-- `store.go::MemoryStore`.  An entry is stored under its own identifier bytes.  `events` is
what has been sent to the watcher, `none` before the first `Subscribe`; `saves` counts the calls
of `saveFile`. -/
structure MemoryStore where
  entries : GoMap Bytes SignedEntry
  keyed : ∀ k e, entries.get? k = some e → k = e.entry.id.bytes
  origins : GoMap Bytes InsertOrigin
  events : Option (List StoreEvent)
  seq : UInt64
  persistPath : String
  persistErr : Option SaveError
  saves : ℕ

structure Env where
  blake3 : Blake3
  /-- The clock readings `acceptTimestamp` makes, in order. -/
  clock : ℕ → UInt64
  /-- The outcome of the `n`-th `saveFile` of the store's life. -/
  disk : ℕ → Option SaveError
  validate : Option (SignedEntry → ContentStatus → Bool)
  contentStatus : Option (SignedEntry → ContentStatus)
  fromPeer : EndpointID

namespace Env

/-- A nil `validate` accepts everything. -/
def validates (env : Env) (e : SignedEntry) (status : ContentStatus) : Bool :=
  match env.validate with
  | none => true
  | some f => f e status

/-- A nil `contentStatus` reports complete content. -/
def status (env : Env) (e : SignedEntry) : ContentStatus :=
  match env.contentStatus with
  | none => .complete
  | some f => f e

end Env

/-- The environment of a caller that passes nil callbacks, on a disk that never fails, with the clock
at `now`. -/
def Env.plain (blake3 : Blake3) (now : UInt64) : Env :=
  ⟨blake3, fun _ => now, fun _ => none, none, none, Vector.replicate 32 0⟩

/-- `hasEntryPrefix`: `id` lies under `pre`, for the same namespace and author. -/
def hasEntryPrefix (id pre : RecordIdentifier) : Bool :=
  id.namespaceID = pre.namespaceID && id.author = pre.author && pre.key.isPrefixOf id.key

def sortEntries (entries : List SignedEntry) : List SignedEntry :=
  entries.insertionSort fun a b => (a.compare b).isLE = true

def peerHasNewerValue (values : List RangeValue) (entry : SignedEntry) : Bool :=
  values.any fun v => v.entry.entry.id.compare entry.entry.id = .eq &&
    (v.entry.entry.record.compare entry.entry.record).isGE

def rangeValues (env : Env) (entries : List SignedEntry) : List RangeValue :=
  entries.map fun e => ⟨e, env.status e⟩

def nonEmptyRanges (ranges : List Range) : List Range :=
  ranges.filter fun r => r.start.compare r.stop ≠ .eq

/-- `namespaceScope`: one namespace, or all of them. -/
inductive NamespaceScope where
  | allNamespaces
  | inNamespace (id : NamespaceID)
deriving DecidableEq

def NamespaceScope.contains : NamespaceScope → SignedEntry → Bool
  | .allNamespaces, _ => true
  | .inNamespace id, e => e.entry.namespaceID = id

@[simp] lemma NamespaceScope.contains_inNamespace {id : NamespaceID} :
    (inNamespace id).contains e ↔ e.entry.namespaceID = id :=
  decide_eq_true_iff

namespace MemoryStore

def new : MemoryStore where
  entries := .empty
  keyed := by simp
  origins := .empty
  events := none
  seq := 0
  persistPath := ""
  persistErr := none
  saves := 0

/-! ## Inserting -/

/-- The loop condition that drops the insert: `existing` shadows `entry`. -/
def blocks (entry existing : SignedEntry) : Bool :=
  hasEntryPrefix entry.entry.id existing.entry.id &&
    (entry.entry.record.compare existing.entry.record).isLE

/-- The loop condition that deletes: `entry` shadows `existing`. -/
def evicts (entry existing : SignedEntry) : Bool :=
  hasEntryPrefix existing.entry.id entry.entry.id &&
    (entry.entry.record.compare existing.entry.record).isGE

/-- The store `putEntry` leaves when the insert goes through. -/
def insertEntry (s : MemoryStore) (entry : SignedEntry) (origin : InsertOrigin) (notify : Bool) :
    MemoryStore :=
  let key := entry.entry.id.bytes
  -- `delete(s.origins, k)` for every deleted `k`
  let origins := s.origins.rangeDelete fun k _ => (s.entries.get? k).any (evicts entry)
  { s with
    entries := (s.entries.rangeDelete fun _ => evicts entry).set key entry
    keyed := by
      intro k e h
      rw [GoMap.get?_set] at h
      split at h
      next hk => rw [hk, ← Option.some.inj h]
      · rw [GoMap.get?_rangeDelete, Option.filter_eq_some_iff] at h
        exact s.keyed k e h.1
    origins := if notify then origins.set key origin else origins.delete key
    seq := if notify then s.seq + 1 else s.seq }

/-- `putEntry`: the store, the outcome and the event to publish. -/
def putEntry (s : MemoryStore) (entry : SignedEntry) (origin : InsertOrigin) (notify : Bool) :
    MemoryStore × InsertOutcome × Option StoreEvent :=
  if s.entries.values.any (blocks entry) then (s, ⟨false, 0, none⟩, none)
  else
    let removed := (s.entries.values.filter (evicts entry)).length
    let s' := s.insertEntry entry origin notify
    let event := if notify then
        some (.insert origin.kind s'.seq entry removed origin.fromPeer origin.contentStatus)
      else none
    (s', ⟨true, removed, none⟩, event)

/-- `put`, the insert of snapshot loading: no origin, no event. -/
def put (s : MemoryStore) (entry : SignedEntry) : MemoryStore × InsertOutcome :=
  let (s', outcome, _) := s.putEntry entry .zero false
  (s', outcome)

def send (s : MemoryStore) (event : Option StoreEvent) : MemoryStore :=
  { s with events := s.events.map (· ++ event.toList) }

/-- `setPersistError`: the store and the recovery event, if the error clears. -/
def setPersistError (s : MemoryStore) (err : Option SaveError) : MemoryStore × Option StoreEvent :=
  if s.persistErr.isSome && err.isNone then
    ({ s with persistErr := err, seq := s.seq + 1 }, some (.lagged (s.seq + 1)))
  else ({ s with persistErr := err }, none)

def putWithOrigin (env : Env) (s : MemoryStore) (entry : SignedEntry) (origin : InsertOrigin) :
    MemoryStore × InsertOutcome :=
  let put := s.putEntry entry origin true
  let outcome := put.2.1
  if put.1.persistPath ≠ "" && (outcome.inserted || put.1.persistErr.isSome) then
    let err := env.disk put.1.saves
    let saved := { put.1 with saves := put.1.saves + 1 }.setPersistError err
    let sent := if err.isNone then saved.1.send put.2.2 else saved.1
    (sent.send saved.2, { outcome with err := err })
  else (put.1.send put.2.2, outcome)

/-- `Put`. -/
def putLocal (env : Env) (s : MemoryStore) (entry : SignedEntry) : MemoryStore × InsertOutcome :=
  s.putWithOrigin env entry .zero

/-! ## Reading -/

/-- `scopeRange`: the entries of `sc` in `r`, in document order. -/
def scopeRange (s : MemoryStore) (sc : NamespaceScope) (r : Range) : List SignedEntry :=
  sortEntries (s.entries.values.filter fun e => sc.contains e && r.contains e.entry.id)

def scopeFingerprint (blake3 : Blake3) (s : MemoryStore) (sc : NamespaceScope) (r : Range) :
    Fingerprint :=
  entriesFingerprint blake3 (s.scopeRange sc r)

def fingerprintPart (blake3 : Blake3) (s : MemoryStore) (sc : NamespaceScope) (r : Range) :
    MessagePart :=
  .rangeFingerprint ⟨r, s.scopeFingerprint blake3 sc r⟩

def initialMessage (blake3 : Blake3) (s : MemoryStore) (sc : NamespaceScope) : Message :=
  let entries := s.scopeRange sc .zero
  let first := (entries.head?.map fun e => e.entry.id).getD .zero
  ⟨[.rangeFingerprint ⟨⟨first, first⟩, entriesFingerprint blake3 entries⟩]⟩

/-- `splitRange`'s index of the first entry at or after `r.Start`, 0 if there is none. -/
def splitStart (entries : List SignedEntry) (r : Range) : ℕ :=
  let start := entries.findIdx fun e => (e.entry.id.compare r.start).isGE
  if start = entries.length then 0 else start

/-- `splitRange`'s `pivot(i)`.  The product is exact: it outgrows an `int` only in a loop of
`2^63 / n` turns. -/
def splitPivot (entries : List SignedEntry) (r : Range) (splitFactor i : ℕ) : RecordIdentifier :=
  let n := entries.length
  let offset := n * (i % splitFactor + 1) / splitFactor
  ((entries[(splitStart entries r + offset) % n]?).map fun e => e.entry.id).getD .zero

/-- The ranges between consecutive pivots `i` and `i + 1` for `i < m`, equal pivots skipped. -/
def pivotRanges (pivot : ℕ → RecordIdentifier) (m : ℕ) : List Range :=
  (List.range m).filterMap fun i =>
    if (pivot i).compare (pivot (i + 1)) ≠ .eq then some ⟨pivot i, pivot (i + 1)⟩ else none

def splitRange (s : MemoryStore) (sc : NamespaceScope) (r : Range) (splitFactor : ℤ) : List Range :=
  let k := if splitFactor < 2 then 2 else splitFactor.toNat
  let entries := s.scopeRange sc r
  let pivot := splitPivot entries r k
  if entries.length = 0 then []
  else if r.isAll then pivotRanges pivot k
  else nonEmptyRanges (⟨r.start, pivot 0⟩ :: pivotRanges pivot (k - 2) ++ [⟨pivot (k - 2), r.stop⟩])

/-! ## Bounding a reply -/

def maxSyncMessageSize : ℕ := 16 * 1024 * 1024

def frameBudget : ℕ := maxSyncMessageSize - 16

/-- First loop of `boundedMessage`: a range item that alone exceeds the budget becomes the
fingerprints of its halves. -/
def splitOversized (blake3 : Blake3) (s : MemoryStore) (sc : NamespaceScope) :
    MessagePart → List MessagePart
  | .rangeItem item =>
    match (MessagePart.rangeItem item).marshal with
    | none => [.rangeItem item]
    | some b =>
      if b.length ≤ frameBudget || item.values.length < 2 then [.rangeItem item]
      else (s.splitRange sc item.range 2).map (s.fingerprintPart blake3 sc)
  | part => [part]

/-- One turn of the second loop of `boundedMessage`: once the budget is used up, a range item is
described by its fingerprint.  The part to send and the size so far; `none` is an encoding error. -/
def fitPart (blake3 : Blake3) (s : MemoryStore) (sc : NamespaceScope) (size : ℕ)
    (part : MessagePart) : Option (MessagePart × ℕ) :=
  part.marshal.bind fun b =>
    match part with
    | .rangeItem item =>
      if frameBudget < size + b.length then
        let part := s.fingerprintPart blake3 sc item.range
        part.marshal.map fun b => (part, size + b.length)
      else some (.rangeItem item, size + b.length)
    | part => some (part, size + b.length)

def fitParts (blake3 : Blake3) (s : MemoryStore) (sc : NamespaceScope) :
    ℕ → List MessagePart → Option (List MessagePart)
  | _, [] => some []
  | size, part :: rest =>
    (s.fitPart blake3 sc size part).bind fun fit =>
      (s.fitParts blake3 sc fit.2 rest).map (fit.1 :: ·)

def boundedMessage (blake3 : Blake3) (s : MemoryStore) (sc : NamespaceScope)
    (parts : List MessagePart) : Message :=
  match s.fitParts blake3 sc 0 (parts.flatMap (s.splitOversized blake3 sc)) with
  | some split => ⟨split⟩
  | none => ⟨parts⟩

/-! ## Processing a message -/

/-- What `processMessage` has done so far: the store, the number of clock readings and the calls
of `onInsert`. -/
structure Progress where
  store : MemoryStore
  ticks : ℕ
  inserted : List RangeValue

def putValue (env : Env) (sc : NamespaceScope) (p : Progress) (value : RangeValue) :
    Progress × Option SaveError :=
  if !sc.contains value.entry then (p, none)
  else if !acceptTimestamp (env.clock p.ticks) value.entry.entry ||
      !env.validates value.entry value.status then ({ p with ticks := p.ticks + 1 }, none)
  else
    let put := p.store.putWithOrigin env value.entry
      ⟨.insertOriginRemote, env.fromPeer, value.status⟩
    -- `onInsert` is called only when the save did not fail
    ({ store := put.1
       ticks := p.ticks + 1
       inserted := if put.2.inserted && put.2.err.isNone then p.inserted ++ [value]
         else p.inserted }, put.2.err)

def putValues (env : Env) (sc : NamespaceScope) :
    Progress → List RangeValue → Progress × Option SaveError
  | p, [] => (p, none)
  | p, value :: values =>
    let put := putValue env sc p value
    match put.2 with
    | some err => (put.1, some err)
    | none => putValues env sc put.1 values

def itemDiff (env : Env) (s : MemoryStore) (sc : NamespaceScope) (item : RangeItem) :
    List RangeValue :=
  if item.haveLocal then []
  else rangeValues env
    ((s.scopeRange sc item.range).filter fun e => !peerHasNewerValue item.values e)

def itemAnswer (env : Env) (s : MemoryStore) (sc : NamespaceScope) (item : RangeItem) :
    List MessagePart :=
  let diff := itemDiff env s sc item
  if diff.isEmpty then [] else [.rangeItem ⟨item.range, diff, true⟩]

/-- The loop over the range items of a message, with the parts it appends.  An item is answered from
the store as it was before the item's values went in. -/
def processItems (env : Env) (sc : NamespaceScope) :
    Progress → List RangeItem → Progress × Except SaveError (List MessagePart)
  | p, [] => (p, .ok [])
  | p, item :: items =>
    let put := putValues env sc p item.values
    match put.2 with
    | some err => (put.1, .error err)
    | none =>
      let rest := processItems env sc put.1 items
      (rest.1, rest.2.map (itemAnswer env p.store sc item ++ ·))

def answerFingerprint (env : Env) (s : MemoryStore) (sc : NamespaceScope) (config : SyncConfig)
    (remote : RangeFingerprint) : List MessagePart :=
  if s.scopeFingerprint env.blake3 sc remote.range = remote.fingerprint then []
  else
    let entries := s.scopeRange sc remote.range
    if entries.length ≤ 1 || remote.fingerprint = emptyFingerprint env.blake3 then
      [.rangeItem ⟨remote.range, rangeValues env entries, false⟩]
    else (s.splitRange sc remote.range config.splitFactor).map fun r =>
      let chunk := s.scopeRange sc r
      if config.maxSetSize < chunk.length then s.fingerprintPart env.blake3 sc r
      else .rangeItem ⟨r, rangeValues env chunk, false⟩

def items (message : Message) : List RangeItem :=
  message.parts.filterMap fun
    | .rangeItem item => some item
    | _ => none

def fingerprints (message : Message) : List RangeFingerprint :=
  message.parts.filterMap fun
    | .rangeFingerprint fp => some fp
    | _ => none

/-- The work of `processMessage` up to `boundedMessage`: what it leaves behind, and the parts of the
reply. -/
def replyParts (env : Env) (s : MemoryStore) (sc : NamespaceScope) (config : SyncConfig)
    (message : Message) : Progress × Except SaveError (List MessagePart) :=
  match s.persistErr with
  | some err => (⟨s, 0, []⟩, .error err)
  | none =>
    let done := processItems env sc ⟨s, 0, []⟩ (items message)
    (done.1, done.2.map (· ++ (fingerprints message).flatMap
      (answerFingerprint env done.1.store sc config.withDefaults)))

/-- What `processMessage` returns and leaves behind.  A reply of `none` ends the exchange. -/
structure Processed where
  store : MemoryStore
  inserted : List RangeValue
  reply : Except SaveError (Option Message)

def processMessage (env : Env) (s : MemoryStore) (sc : NamespaceScope) (config : SyncConfig)
    (message : Message) : Processed where
  store := (s.replyParts env sc config message).1.store
  inserted := (s.replyParts env sc config message).1.inserted
  reply := (s.replyParts env sc config message).2.map fun out =>
    if out.isEmpty then none
    else some ((s.replyParts env sc config message).1.store.boundedMessage env.blake3 sc out)

end MemoryStore

end Iroh.Docs
