import Mathlib.Algebra.Ring.Nat
import Iroh.Common.LagRing
import Iroh.Docs.Store

/-!
# Subscribers of the store

Reference: `docs/watcher.go`, `docs/store.go::PutWithOrigin`, `docs/store_file.go::SaveFile`.

Two threads meet here.  A caller holds `persistMu` for the whole of `PutWithOrigin` or `SaveFile`, so
there is at most one `Call` at a time; its steps are the insert, the save with the update of
`persistErr`, and each `Send`.  The goroutine `deliver` of a subscriber takes from its ring, puts on
its channel, and somebody reads the channel.  All these steps interleave freely, and `Subscribe`, which
takes only `mu`, may come between any two of them.
-/

namespace Iroh.Docs

open List

/-! ## A subscriber -/

def storeBroadcastCapacity : ℕ := 8

/-- `watcher.go::storeSub`, before it is closed.  `queue` is `ring`, `missed` and `lagged`.  A report
of missed events stands for `StoreEvent{Kind: StoreEventLagged, Missed: n}`, which has no sequence
number. -/
structure StoreSub where
  queue : LagRing StoreEvent
  /-- What `deliver` has taken and not put on the channel yet. -/
  out : Option (Report StoreEvent)
  ch : List (Report StoreEvent)
  received : List (Report StoreEvent)
  enqueued : List StoreEvent
deriving DecidableEq

namespace StoreSub

def new : StoreSub := ⟨.empty, none, [], [], []⟩

def enqueue (b : StoreSub) (ev : StoreEvent) : StoreSub :=
  { b with queue := b.queue.push storeBroadcastCapacity ev, enqueued := b.enqueued ++ [ev] }

/-- The locked part of `deliver`, which waits while there is nothing to take. -/
def take (b : StoreSub) : StoreSub :=
  match b.out, b.queue.pop with
  | none, some (out, queue) => { b with queue := queue, out := some out }
  | _, _ => b

/-- `s.ch <- out`, which waits while the channel is full. -/
def deliver (b : StoreSub) : StoreSub :=
  match b.out with
  | some out =>
    if b.ch.length < storeBroadcastCapacity + 1 then { b with out := none, ch := b.ch ++ [out] }
    else b
  | none => b

def read (b : StoreSub) : StoreSub :=
  match b.ch with
  | out :: ch => { b with ch := ch, received := b.received ++ [out] }
  | [] => b

def taken (b : StoreSub) : List (Report StoreEvent) := b.received ++ (b.ch ++ b.out.toList)

/-! ### The account of one subscriber -/

def Accounted (b : StoreSub) : Prop := LagRing.Accounts b.enqueued b.taken b.queue

lemma accounted_new : new.Accounted := LagRing.Accounts.empty

variable {b : StoreSub}

lemma Accounted.enqueue (h : b.Accounted) (ev : StoreEvent) : (b.enqueue ev).Accounted :=
  LagRing.Accounts.push h (by decide) ev

def Moves (f : StoreSub → StoreSub) : Prop :=
  ∀ b, (f b).enqueued = b.enqueued ∧ (b.Accounted → (f b).Accounted)

lemma moves_take : Moves take := by
  intro b
  unfold take
  split
  next out queue hnone hpop =>
    refine ⟨rfl, fun h => ?_⟩
    have hpopped := LagRing.Accounts.pop h hpop
    simpa [Accounted, taken, hnone] using hpopped
  · exact ⟨rfl, id⟩

-- the last two steps move a report along without changing what has left the ring
lemma moves_deliver : Moves deliver := by
  intro b
  unfold deliver
  split
  next out hout =>
    split
    · exact ⟨rfl, fun h => by simpa [Accounted, taken, hout] using h⟩
    · exact ⟨rfl, id⟩
  · exact ⟨rfl, id⟩

lemma moves_read : Moves read := by
  intro b
  unfold read
  split
  next out ch hch => exact ⟨rfl, fun h => by simpa [Accounted, taken, hch] using h⟩
  · exact ⟨rfl, id⟩

/-- **The `k`-th event enqueued is read when `k` events have been read or reported missed.** -/
theorem Accounted.read_at (h : b.Accounted)
    (hread : b.received = pre ++ .event e :: post) : b.enqueued[covered pre]? = some e := by
  refine h.placed pre e (post ++ (b.ch ++ b.out.toList)) ?_
  rw [taken, hread, append_assoc, cons_append]

lemma Accounted.received_sublist (h : b.Accounted) : (Iroh.received b.received).Sublist b.enqueued := by
  refine List.Sublist.trans ?_ (LagRing.Accounts.received_sublist h)
  rw [taken, received_append]
  exact sublist_append_left _ _

end StoreSub

/-! ## The store and one subscriber -/

/-- What the call that holds `persistMu` has left to do. -/
inductive Call where
  | idle
  /-- `PutWithOrigin` after `putEntry`; `watched` says whether `putEntry` found a watcher. -/
  | inserted (outcome : InsertOutcome) (event : Option StoreEvent) (watched : Bool)
  | sending (events : List StoreEvent)
deriving DecidableEq

def Call.pending : Call → List StoreEvent
  | idle => []
  | inserted _ event watched => if watched then event.toList else []
  | sending events => events

structure WatchedStore where
  store : MemoryStore
  call : Call
  sub : Option StoreSub

inductive WatchStep where
  /-- `PutWithOrigin` takes `persistMu` and inserts. -/
  | put (entry : SignedEntry) (origin : InsertOrigin)
  /-- `PutWithOrigin` saves. -/
  | save
  /-- `SaveFile` takes `persistMu` and saves. -/
  | saveFile (path : String)
  /-- The call sends its next event, or returns when there is none. -/
  | send
  | subscribe
  | take
  | deliver
  | read

namespace MemoryStore

/-- `MemoryStore.Subscribe`, as far as the store goes. -/
def watch (s : MemoryStore) : MemoryStore := { s with events := some (s.events.getD []) }

def sent (s : MemoryStore) : List StoreEvent := s.events.getD []

/-- `saveFile` and `setPersistError`: the store and the recovery event, if there is a watcher to send
it to. -/
def persist (env : Env) (s : MemoryStore) : MemoryStore × Option StoreEvent :=
  let saved := { s with saves := s.saves + 1 }.setPersistError (env.disk s.saves)
  (saved.1, if saved.1.events.isSome then saved.2 else none)

def savePut (env : Env) (s : MemoryStore) (outcome : InsertOutcome) (event : Option StoreEvent)
    (watched : Bool) : MemoryStore × List StoreEvent :=
  if s.persistPath ≠ "" && (outcome.inserted || s.persistErr.isSome) then
    let saved := s.persist env
    let event := if (env.disk s.saves).isNone && watched then event else none
    (saved.1, event.toList ++ saved.2.toList)
  else (s, if watched then event.toList else [])

/-- `SaveFile` before it sends. -/
def saveFile (env : Env) (s : MemoryStore) (path : String) : MemoryStore × List StoreEvent :=
  if path = s.persistPath then
    let saved := s.persist env
    (saved.1, saved.2.toList)
  else ({ s with saves := s.saves + 1 }, [])

end MemoryStore

namespace WatchedStore

def start (s : MemoryStore) : WatchedStore := ⟨s, .idle, none⟩

def sendOne (s : WatchedStore) (event : StoreEvent) : WatchedStore :=
  { s with store := s.store.send (some event), sub := s.sub.map (·.enqueue event) }

def step (env : Env) (s : WatchedStore) : WatchStep → WatchedStore
  | .put entry origin => match s.call with
      | .idle =>
        let put := s.store.putEntry entry origin true
        { s with store := put.1, call := .inserted put.2.1 put.2.2 s.store.events.isSome }
      | _ => s
  | .save => match s.call with
      | .inserted outcome event watched =>
        let saved := s.store.savePut env outcome event watched
        { s with store := saved.1, call := .sending saved.2 }
      | _ => s
  | .saveFile path => match s.call with
      | .idle =>
        let saved := s.store.saveFile env path
        { s with store := saved.1, call := .sending saved.2 }
      | _ => s
  | .send => match s.call with
      | .sending (event :: events) => { s.sendOne event with call := .sending events }
      | .sending [] => { s with call := .idle }
      | _ => s
  | .subscribe => match s.sub with
      | none => { s with store := s.store.watch, sub := some .new }
      | some _ => s
  | .take => { s with sub := s.sub.map (·.take) }
  | .deliver => { s with sub := s.sub.map (·.deliver) }
  | .read => { s with sub := s.sub.map (·.read) }

def run (env : Env) (s : WatchedStore) (steps : List WatchStep) : WatchedStore :=
  steps.foldl (step env) s

end WatchedStore

/-! ## A call as a whole -/

namespace MemoryStore

variable (s : MemoryStore)

@[simp] lemma setPersistError_events (err : Option SaveError) :
    (s.setPersistError err).1.events = s.events := by
  unfold setPersistError
  split <;> rfl

@[simp] lemma putEntry_events (entry : SignedEntry) (origin : InsertOrigin) :
    (s.putEntry entry origin true).1.events = s.events := by
  unfold putEntry
  split <;> rfl

lemma send_none : s.send none = s := by
  simp [send]

lemma send_of_unwatched {s : MemoryStore} (h : s.events = none) (event : Option StoreEvent) :
    s.send event = s := by
  cases s
  cases h
  rfl

def sendAll (s : MemoryStore) (events : List StoreEvent) : MemoryStore :=
  events.foldl (fun s event => s.send (some event)) s

lemma sendAll_toList (event : Option StoreEvent) : s.sendAll event.toList = s.send event := by
  cases event with
  | none => exact (send_none s).symm
  | some event => rfl

lemma sendAll_append (l l' : List StoreEvent) : s.sendAll (l ++ l') = (s.sendAll l).sendAll l' :=
  foldl_append

/-- **The steps of `PutWithOrigin` make up the whole call.** -/
theorem sendAll_savePut (env : Env) (s : MemoryStore) (entry : SignedEntry) (origin : InsertOrigin) :
    let put := s.putEntry entry origin true
    let saved := put.1.savePut env put.2.1 put.2.2 s.events.isSome
    saved.1.sendAll saved.2 = (s.putWithOrigin env entry origin).1 := by
  intro put saved
  have hput : put.1.events = s.events := putEntry_events s entry origin
  have hpersist : (put.1.persist env).1.events = s.events := (setPersistError_events _ _).trans hput
  simp only [saved, savePut, putWithOrigin]
  by_cases hsave : (put.1.persistPath ≠ "" && (put.2.1.inserted || put.1.persistErr.isSome)) = true
  · rw [if_pos hsave, if_pos hsave, sendAll_append, sendAll_toList, sendAll_toList]
    dsimp only [persist] at hpersist ⊢
    cases hevents : s.events with
    | none =>
      have hnone := hpersist.trans hevents
      rw [send_of_unwatched hnone, send_of_unwatched hnone]
      split
      · rw [send_of_unwatched hnone, send_of_unwatched hnone]
      · rw [send_of_unwatched hnone]
    | some log =>
      rw [hpersist, hevents, Option.isSome_some, Bool.and_true, if_pos rfl]
      split
      · rfl
      · rw [send_none]
  · rw [if_neg hsave, if_neg hsave]
    cases hevents : s.events with
    | none => exact (send_of_unwatched (hput.trans hevents) _).symm
    | some log => exact sendAll_toList _ _

end MemoryStore

namespace WatchedStore

lemma run_sends (env : Env) (s : MemoryStore) (sub : Option StoreSub) (events : List StoreEvent) :
    ∃ n sub', run env ⟨s, .sending events, sub⟩ (replicate n .send) =
      ⟨s.sendAll events, .idle, sub'⟩ := by
  induction events generalizing s sub with
  | nil => exact ⟨1, sub, rfl⟩
  | cons event events ih =>
    obtain ⟨n, sub', h⟩ := ih (s.send (some event)) (sub.map (·.enqueue event))
    exact ⟨n + 1, sub', h⟩

/-- **Left alone, the caller's steps are `putWithOrigin`.** -/
theorem run_put (env : Env) (s : MemoryStore) (sub : Option StoreSub) (entry : SignedEntry)
    (origin : InsertOrigin) :
    ∃ n sub', run env ⟨s, .idle, sub⟩ (.put entry origin :: .save :: replicate n .send) =
      ⟨(s.putWithOrigin env entry origin).1, .idle, sub'⟩ := by
  rw [← MemoryStore.sendAll_savePut]
  exact run_sends env _ sub _

end WatchedStore

/-! ## The events come in order -/

def StoreEvent.sequence : StoreEvent → UInt64
  | insert _ sequence _ _ _ _ => sequence
  | lagged sequence => sequence

/-- The sequence numbers of `es` are those of an increasing count up to `n`, which the store keeps
in a `uint64`. -/
def Numbered (n : ℕ) (es : List StoreEvent) : Prop :=
  ∃ counts : List ℕ, counts.Pairwise (· < ·) ∧ (∀ c ∈ counts, c ≤ n) ∧
    es.map StoreEvent.sequence = counts.map UInt64.ofNat

namespace Numbered

variable {n : ℕ} {es es' : List StoreEvent}

lemma nil (n : ℕ) : Numbered n [] := ⟨[], .nil, by simp, rfl⟩

variable (h : Numbered n es)
include h

lemma sublist (hsub : es'.Sublist es) : Numbered n es' := by
  obtain ⟨counts, horder, hle, hmap⟩ := h
  have hmaps : (es'.map StoreEvent.sequence).Sublist (counts.map UInt64.ofNat) := hmap ▸ hsub.map _
  obtain ⟨counts', hcounts, hmap'⟩ := sublist_map_iff.mp hmaps
  exact ⟨counts', horder.sublist hcounts, fun c hc => hle c (hcounts.subset hc), hmap'⟩

lemma mono (hle : n ≤ m) : Numbered m es := by
  obtain ⟨counts, horder, hbound, hmap⟩ := h
  exact ⟨counts, horder, fun c hc => (hbound c hc).trans hle, hmap⟩

lemma snoc (he : e.sequence = UInt64.ofNat (n + 1)) : Numbered (n + 1) (es ++ [e]) := by
  obtain ⟨counts, horder, hle, hmap⟩ := h
  refine ⟨counts ++ [n + 1], ?_, ?_, ?_⟩
  · refine pairwise_append.mpr ⟨horder, pairwise_singleton _ _, ?_⟩
    intro c hc d hd
    rw [mem_singleton.mp hd]
    exact Nat.lt_succ_of_le (hle c hc)
  · intro c hc
    rcases mem_append.mp hc with hc | hc
    · exact (hle c hc).trans (Nat.le_succ n)
    · exact (mem_singleton.mp hc).le
  · rw [map_append, map_append, hmap]
    exact congrArg (_ ++ ·) (congrArg (fun x => [x]) he)

lemma pairwise_lt (hn : n < 2 ^ 64) : (es.map StoreEvent.sequence).Pairwise (· < ·) := by
  obtain ⟨counts, horder, hle, hmap⟩ := h
  rw [hmap, pairwise_map]
  refine horder.imp_of_mem ?_
  intro c d hc hd hlt
  have hd' := hle d hd
  rw [UInt64.lt_iff_toNat_lt, UInt64.toNat_ofNat_of_lt' (by simpa [UInt64.size] using by omega),
    UInt64.toNat_ofNat_of_lt' (by simpa [UInt64.size] using by omega)]
  exact hlt

end Numbered
/-! ## What a step does -/

namespace MemoryStore

def Issues (s s' : MemoryStore) (e : Option StoreEvent) : Prop :=
  (s'.seq = s.seq ∧ e = none) ∨ (s'.seq = s.seq + 1 ∧ ∀ ev ∈ e, ev.sequence = s.seq + 1)

/-- What a part of a call does to the store, and to the events `due` that are to be sent. -/
structure Advances (s s' : MemoryStore) (due due' : List StoreEvent) : Prop where
  events : s'.events = s.events
  issues : ∃ e, s.Issues s' e ∧ due'.Sublist (due ++ e.toList)
  recovers : s.events.isSome → s.persistErr ≠ none → s'.persistErr ≠ none ∨ ∃ q, .lagged q ∈ due'
  sends : ∀ ev ∈ due, s'.persistErr ≠ none ∨ ev ∈ due'

lemma Advances.refl (s : MemoryStore) (due : List StoreEvent) : s.Advances s due due :=
  ⟨rfl, ⟨none, .inl ⟨rfl, rfl⟩, by simp⟩, fun _ => .inl, fun _ => .inr⟩

lemma advances_putEntry (s : MemoryStore) (entry : SignedEntry) (origin : InsertOrigin) :
    let put := s.putEntry entry origin true
    s.Advances put.1 [] (Call.inserted put.2.1 put.2.2 s.events.isSome).pending := by
  unfold putEntry
  split
  · exact ⟨rfl, ⟨none, .inl ⟨rfl, rfl⟩, by simp [Call.pending]⟩, fun _ => .inl, by simp⟩
  · let event := StoreEvent.insert origin.kind (s.seq + 1) entry
      (s.entries.values.filter (evicts entry)).length origin.fromPeer origin.contentStatus
    refine ⟨rfl, ⟨some event, .inr ⟨rfl, ?_⟩, ?_⟩, fun _ => .inl, by simp⟩
    · rintro ev ⟨⟩
      rfl
    · simp only [Call.pending]
      split
      · exact List.Sublist.refl _
      · exact nil_sublist _

variable (env : Env) (s : MemoryStore)

lemma persist_persistErr : (s.persist env).1.persistErr = env.disk s.saves := by
  unfold persist setPersistError
  split <;> rfl

lemma advances_persist : s.Advances (s.persist env).1 [] (s.persist env).2.toList := by
  refine ⟨setPersistError_events _ _, ⟨_, ?_, List.Sublist.refl _⟩, fun hwatched herr => ?_, by simp⟩
  · unfold persist setPersistError
    split
    · refine .inr ⟨rfl, fun ev hev => ?_⟩
      dsimp only at hev
      split at hev
      · rw [← Option.some.inj hev]
        rfl
      · cases hev
    · exact .inl ⟨rfl, by simp⟩
  · obtain ⟨err, herr⟩ := Option.ne_none_iff_exists'.mp herr
    rw [persist_persistErr]
    cases hdisk : env.disk s.saves with
    | none => exact .inr ⟨s.seq + 1, by simp [persist, setPersistError, hdisk, herr, hwatched]⟩
    | some failure => exact .inl (Option.some_ne_none failure)

lemma advances_savePut (outcome : InsertOutcome) (event : Option StoreEvent) (watched : Bool) :
    s.Advances (s.savePut env outcome event watched).1 (Call.inserted outcome event watched).pending
      (s.savePut env outcome event watched).2 := by
  unfold savePut
  split
  · obtain ⟨hevents, ⟨e, hissue, hsub⟩, hrecovers, -⟩ := advances_persist env s
    refine ⟨hevents, ⟨e, hissue, .append ?_ hsub⟩, fun hwatched herr => ?_, fun ev hev => ?_⟩
    · cases watched <;> cases env.disk s.saves <;> simp [Call.pending]
    · refine (hrecovers hwatched herr).imp_right ?_
      rintro ⟨q, hq⟩
      exact ⟨q, mem_append_right _ hq⟩
    · obtain ⟨rfl, rfl⟩ : watched = true ∧ event = some ev := by
        cases watched <;> simp_all [Call.pending]
      rw [persist_persistErr]
      cases hdisk : env.disk s.saves with
      | none => exact .inr (mem_append_left _ (by simp))
      | some failure => exact .inl (Option.some_ne_none failure)
  · exact .refl s _

lemma advances_saveFile (path : String) :
    s.Advances (s.saveFile env path).1 [] (s.saveFile env path).2 := by
  unfold saveFile
  split
  · exact advances_persist env s
  · exact { Advances.refl s [] with }

end MemoryStore

lemma Numbered.issue (h : Numbered n es) {s s' : MemoryStore}
    (hseq : s.seq = UInt64.ofNat n) (hissue : s.Issues s' e) :
    ∃ m, m ≤ n + 1 ∧ s'.seq = UInt64.ofNat m ∧ Numbered m (es ++ e.toList) := by
  have hnext : s.seq + 1 = UInt64.ofNat (n + 1) := by rw [hseq, UInt64.ofNat_add]; rfl
  rcases hissue with ⟨hsame, rfl⟩ | ⟨hnew, he⟩
  · refine ⟨n, Nat.le_succ n, hsame.trans hseq, ?_⟩
    rw [Option.toList_none, append_nil]
    exact h
  · refine ⟨n + 1, le_rfl, hnew.trans hnext, ?_⟩
    cases e with
    | none =>
      rw [Option.toList_none, append_nil]
      exact h.mono (Nat.le_succ n)
    | some ev => exact h.snoc ((he ev rfl).trans hnext)

namespace WatchedStore

variable {s s' : WatchedStore} {n : ℕ}

inductive Effect (s : WatchedStore) : WatchedStore → Prop where
  | advance {store : MemoryStore} {call : Call} :
      s.store.Advances store s.call.pending call.pending → Effect s { s with store := store, call := call }
  | send {event : StoreEvent} {events : List StoreEvent} : s.call = .sending (event :: events) →
      Effect s { s.sendOne event with call := .sending events }
  | subscribe : s.sub = none → Effect s { s with store := s.store.watch, sub := some .new }
  | sub {f : StoreSub → StoreSub} : StoreSub.Moves f → Effect s { s with sub := s.sub.map f }

lemma Effect.refl (s : WatchedStore) : s.Effect s := .advance (.refl _ _)

lemma effect_step (env : Env) (s : WatchedStore) (a : WatchStep) : s.Effect (s.step env a) := by
  obtain ⟨store, call, sub⟩ := s
  cases a with
  | put entry origin =>
    cases call with
    | idle => exact .advance (store.advances_putEntry entry origin)
    | _ => exact .refl _
  | save =>
    cases call with
    | inserted outcome event watched =>
      exact .advance (store.advances_savePut env outcome event watched)
    | _ => exact .refl _
  | saveFile path =>
    cases call with
    | idle => exact .advance (store.advances_saveFile env path)
    | _ => exact .refl _
  | send =>
    cases call with
    | sending events =>
      cases events with
      | nil => exact .advance (.refl store [])
      | cons event events => exact .send rfl
    | _ => exact .refl _
  | subscribe =>
    cases sub with
    | none => exact .subscribe rfl
    | some b => exact .refl _
  | take => exact .sub StoreSub.moves_take
  | deliver => exact .sub StoreSub.moves_deliver
  | read => exact .sub StoreSub.moves_read

def enqueued (s : WatchedStore) : List StoreEvent := (s.sub.map (·.enqueued)).getD []

def Ordered (s : WatchedStore) (n : ℕ) : Prop :=
  s.store.seq = UInt64.ofNat n ∧ Numbered n (s.enqueued ++ s.call.pending)

lemma Effect.ordered (heffect : s.Effect s') (h : s.Ordered n) : ∃ m, m ≤ n + 1 ∧ s'.Ordered m := by
  obtain ⟨hseq, hnum⟩ := h
  cases heffect with
  | advance hadvances =>
    obtain ⟨e, hissue, hsub⟩ := hadvances.issues
    obtain ⟨m, hm, hseq', hnum'⟩ := hnum.issue hseq hissue
    refine ⟨m, hm, hseq', hnum'.sublist ?_⟩
    rw [append_assoc]
    exact hsub.append_left _
  | send hcall =>
    refine ⟨n, Nat.le_succ n, hseq, hnum.sublist ?_⟩
    simp only [enqueued, sendOne, hcall, Call.pending]
    cases s.sub <;> simp [StoreSub.enqueue]
  | subscribe hsub =>
    rw [enqueued, hsub] at hnum
    exact ⟨n, Nat.le_succ n, hseq, hnum⟩
  | @sub f hmoves =>
    have hsame : enqueued { s with sub := s.sub.map f } = s.enqueued := by
      simp [enqueued, Option.map_map, Function.comp_def, hmoves _]
    exact ⟨n, Nat.le_succ n, hseq, hsame ▸ hnum⟩

lemma run_ordered (env : Env) (h : s.Ordered n) (steps : List WatchStep) :
    ∃ m, m ≤ n + steps.length ∧ (s.run env steps).Ordered m := by
  induction steps generalizing s n with
  | nil => exact ⟨n, le_rfl, h⟩
  | cons a steps ih =>
    obtain ⟨m, hm, hstep⟩ := (effect_step env s a).ordered h
    obtain ⟨k, hk, hrun⟩ := ih hstep
    refine ⟨k, ?_, hrun⟩
    rw [length_cons]
    omega

/-! ## What leaves the ring adds up -/

/-- The subscriber's account is right, and what was enqueued is the end of what was sent, without a gap. -/
def Accounted (s : WatchedStore) : Prop :=
  ∀ b, s.sub = some b → b.Accounted ∧ s.store.events.isSome ∧ b.enqueued <:+ s.store.sent

lemma Effect.accounted (heffect : s.Effect s') (h : s.Accounted) : s'.Accounted := by
  intro b hb
  cases heffect with
  | @advance store call hadvances =>
    obtain ⟨hacc, hsome, hsuffix⟩ := h b hb
    have hsent : store.sent = s.store.sent := congrArg (·.getD []) hadvances.events
    exact ⟨hacc, hadvances.events ▸ hsome, hsent ▸ hsuffix⟩
  | @send event events hcall =>
    obtain ⟨b₀, hb₀, rfl⟩ := Option.map_eq_some_iff.mp hb
    obtain ⟨hacc, hsome, before, hbefore⟩ := h b₀ hb₀
    obtain ⟨log, hlog⟩ := Option.isSome_iff_exists.mp hsome
    rw [MemoryStore.sent, hlog, Option.getD_some] at hbefore
    refine ⟨hacc.enqueue event, ?_, before, ?_⟩
    · simp [sendOne, MemoryStore.send, hlog]
    · simp [sendOne, MemoryStore.send, MemoryStore.sent, hlog, StoreSub.enqueue, ← hbefore]
  | subscribe hsub =>
    rw [← Option.some.inj hb]
    exact ⟨StoreSub.accounted_new, rfl, nil_suffix⟩
  | sub hmoves =>
    obtain ⟨b₀, hb₀, rfl⟩ := Option.map_eq_some_iff.mp hb
    obtain ⟨hacc, hsome, hsuffix⟩ := h b₀ hb₀
    exact ⟨(hmoves b₀).2 hacc, hsome, (hmoves b₀).1.symm ▸ hsuffix⟩

lemma run_accounted (env : Env) (s : MemoryStore) (steps : List WatchStep) :
    ((start s).run env steps).Accounted := by
  apply foldlRecOn (motive := Accounted) steps
  · intro b hb
    cases hb
  · intro s' h a _
    exact (effect_step env s' a).accounted h

/-! ## What is withheld is reported -/

/-- `ev` lets a subscriber know of the insert whose event is `e`: it is that event, or the report of a
recovery. -/
def Tells (e ev : StoreEvent) : Prop := ev = e ∨ ∃ q, ev = .lagged q

/-- The subscribers know of the insert, will, or see that saving fails. -/
structure Reported (e : StoreEvent) (n : ℕ) (s : WatchedStore) : Prop where
  watched : s.store.events.isSome
  le : n ≤ s.store.sent.length
  told : s.store.persistErr ≠ none ∨ ∃ ev, Tells e ev ∧ ev ∈ s.store.sent.drop n ++ s.call.pending

namespace Reported

variable {e : StoreEvent}

lemma sendOne (h : Reported e n s) (hcall : s.call = .sending (event :: events)) :
    Reported e n { s.sendOne event with call := .sending events } := by
  have hsent : (s.store.send (some event)).sent = s.store.sent ++ [event] := by
    obtain ⟨log, hlog⟩ := Option.isSome_iff_exists.mp h.watched
    simp [MemoryStore.send, MemoryStore.sent, hlog]
  refine ⟨?_, ?_, h.told.imp_right ?_⟩
  · dsimp only [WatchedStore.sendOne, MemoryStore.send]
    rw [Option.isSome_map]
    exact h.watched
  · dsimp only [WatchedStore.sendOne]
    rw [hsent, length_append]
    exact h.le.trans (Nat.le_add_right _ _)
  · rintro ⟨ev, hev, hmem⟩
    refine ⟨ev, hev, ?_⟩
    dsimp only [WatchedStore.sendOne]
    rw [hsent, drop_append_of_le_length h.le, append_assoc]
    rw [hcall] at hmem
    exact hmem

lemma effect (h : Reported e n s) (heffect : s.Effect s') : Reported e n s' := by
  cases heffect with
  | @advance store call hadvances =>
    have hsent : store.sent = s.store.sent := congrArg (·.getD []) hadvances.events
    refine ⟨hadvances.events ▸ h.watched, hsent ▸ h.le, ?_⟩
    rw [hsent]
    rcases h.told with herr | ⟨ev, hev, hmem⟩
    · refine (hadvances.recovers h.watched herr).imp_right ?_
      rintro ⟨q, hq⟩
      exact ⟨_, .inr ⟨q, rfl⟩, mem_append_right _ hq⟩
    · rcases mem_append.mp hmem with hmem | hmem
      · exact .inr ⟨ev, hev, mem_append_left _ hmem⟩
      · refine (hadvances.sends ev hmem).imp_right ?_
        exact fun hq => ⟨ev, hev, mem_append_right _ hq⟩
  | send hcall => exact h.sendOne hcall
  | subscribe hsub => exact ⟨rfl, h.le, h.told⟩
  | sub hmoves => exact { h with }

lemma run (env : Env) (h : Reported e n s) (steps : List WatchStep) :
    Reported e n (s.run env steps) := by
  apply foldlRecOn (motive := Reported e n) steps _ h
  intro s' h' a _
  exact h'.effect (effect_step env s' a)

end Reported

/-- **A subscriber never silently misses an insert.** -/
theorem no_insert_silently_missed (env : Env) (s₀ : MemoryStore) (steps : List WatchStep) :
    let s := (start s₀).run env steps
    (∀ b, s.sub = some b → b.enqueued <:+ s.store.sent ∧
      Numbered (s₀.seq.toNat + steps.length) (received b.received) ∧
      (s₀.seq.toNat + steps.length < 2 ^ 64 →
        ((received b.received).map StoreEvent.sequence).Pairwise (· < ·)) ∧
      ∀ pre e post, b.received = pre ++ .event e :: post →
        b.enqueued[(received pre).length + missedTotal pre]? = some e) ∧
    ∀ pre entry origin rest e, steps = pre ++ .put entry origin :: rest →
      let s₁ := (start s₀).run env pre
      s₁.call = .idle → s₁.store.events.isSome →
      (s₁.store.putEntry entry origin true).2.2 = some e → s.call = .idle →
      e ∈ s.store.sent.drop s₁.store.sent.length ∨ s.store.persistErr ≠ none ∨
        ∃ q, .lagged q ∈ s.store.sent.drop s₁.store.sent.length := by
  intro s
  constructor
  · intro b hb
    obtain ⟨hacc, -, hsuffix⟩ := run_accounted env s₀ steps b hb
    have hstart : (start s₀).Ordered s₀.seq.toNat := ⟨by simp [start], Numbered.nil _⟩
    obtain ⟨m, hm, -, hnum⟩ := run_ordered env hstart steps
    have hread : (received b.received).Sublist (s.enqueued ++ s.call.pending) := by
      refine hacc.received_sublist.trans ?_
      rw [enqueued, hb]
      exact sublist_append_left _ _
    have hnumbered := (hnum.sublist hread).mono hm
    exact ⟨hsuffix, hnumbered, hnumbered.pairwise_lt, fun pre e post => hacc.read_at⟩
  · intro pre entry origin rest e hsteps s₁ hidle hwatched hput hdone
    have hinsert : Reported e s₁.store.sent.length (s₁.step env (.put entry origin)) := by
      dsimp only [step]
      rw [hidle]
      refine ⟨?_, ?_, .inr ⟨e, .inl rfl, ?_⟩⟩
      · rw [MemoryStore.putEntry_events]
        exact hwatched
      · simp [MemoryStore.sent]
      · apply mem_append_right
        simp [Call.pending, hwatched, hput]
    have hrun : s = (s₁.step env (.put entry origin)).run env rest := by
      simp [s, s₁, hsteps, run]
    obtain ⟨-, -, htold⟩ := hinsert.run env rest
    rw [← hrun, hdone, Call.pending, append_nil] at htold
    rcases htold with herr | ⟨ev, rfl | ⟨q, rfl⟩, hmem⟩
    · exact .inr (.inl herr)
    · exact .inl hmem
    · exact .inr (.inr ⟨q, hmem⟩)

end WatchedStore

end Iroh.Docs
