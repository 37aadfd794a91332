import Iroh.Docs.Store

/-!
# The download queue of live sync

Reference: `docs/live.go`, `docs/live_workers.go`.

Any goroutine may announce content (`queueDownload`); one goroutine downloads it.  A request waits in
the bounded channel, or in the backlog while the channel is full, and `pending` points from its hash to
the list of its providers, which grows while the request waits and while it is being served.

A step of the model is one section under the mutex, one receive, or what the downloader does between
two of them.  Only the downloader receives, so a send under the mutex can lose no race for room; a
receive between two statements of such a section might as well have come before it.
-/

namespace Iroh.Docs

/-- `netaddr.EndpointAddr`, with its transport addresses by their text. -/
structure EndpointAddr where
  id : EndpointID
  addrs : List String
deriving DecidableEq

def EndpointAddr.isZero (addr : EndpointAddr) : Bool := addr.id = Vector.replicate 32 0

/-! ## Providers of a request -/

/-- `pendingDownload`: a provider is seen when it is in the list. -/
structure PendingDownload where
  providers : List EndpointAddr
  seen : GoMap EndpointID Unit
  seen_iff : ∀ id, id ∈ seen.keys ↔ ∃ addr ∈ providers, addr.id = id

namespace PendingDownload

def empty : PendingDownload := ⟨[], .empty, by simp⟩

def add (p : PendingDownload) (addr : EndpointAddr) : PendingDownload :=
  if addr.isZero then p
  else if p.seen.contains addr.id then p
  else
    { providers := p.providers ++ [addr]
      seen := p.seen.set addr.id ()
      seen_iff := by
        intro id
        simp only [GoMap.mem_keys_set, p.seen_iff, List.mem_append, List.mem_singleton]
        constructor
        · rintro (rfl | ⟨a, ha, rfl⟩)
          · exact ⟨addr, .inr rfl, rfl⟩
          · exact ⟨a, .inl ha, rfl⟩
        · rintro ⟨a, ha | rfl, rfl⟩
          · exact .inr ⟨a, ha, rfl⟩
          · exact .inl rfl }

def new (addr : EndpointAddr) : PendingDownload := empty.add addr

lemma providers_prefix_add (p : PendingDownload) (addr : EndpointAddr) :
    p.providers <+: (p.add addr).providers := by
  unfold add
  split
  · exact List.prefix_rfl
  · split
    · exact List.prefix_rfl
    · exact List.prefix_append _ _

lemma exists_mem_providers_add (p : PendingDownload) (h : ¬addr.isZero) :
    ∃ a ∈ (p.add addr).providers, a.id = addr.id := by
  rw [add, if_neg h]
  split
  next hseen => exact (p.seen_iff addr.id).mp (GoMap.contains_iff.mp hseen)
  · exact ⟨addr, List.mem_append_right _ (List.mem_singleton_self addr), rfl⟩

end PendingDownload

/-! ## The queue -/

/-- `liveDownload`: a hash and the pointer to its `pendingDownload`. -/
structure LiveDownload where
  hash : Hash
  pending : ℕ
deriving DecidableEq

/-- Where the downloader is, in `runDownloader` and `download`. -/
inductive Downloader where
  /-- At the `select`. -/
  | receiving
  /-- Before `scheduleDownloads`. -/
  | scheduling (req : LiveDownload)
  /-- At the head of `download`'s loop. -/
  | checking (req : LiveDownload) (tried : ℕ)
  /-- Before `untried`. -/
  | asking (req : LiveDownload) (tried : ℕ)
  /-- In `downloadBlob`. -/
  | downloading (req : LiveDownload) (tried : ℕ) (providers : List EndpointAddr)
  /-- Before `forget`; `ready` if `contentReady` follows. -/
  | forgetting (req : LiveDownload) (ready : Bool)
  /-- In `contentReady` or `broadcastContentReady`. -/
  | publishing
  | stopped

def Downloader.inFlight : Downloader → Option LiveDownload
  | .receiving => none
  | .scheduling req => some req
  | .checking req _ => some req
  | .asking req _ => some req
  | .downloading req _ _ => some req
  | .forgetting req _ => some req
  | .publishing => none
  | .stopped => none

/-- The parts of `LiveSync` that downloads use.  A pointer is a number, and `next` the next one that
`new` gives out. -/
structure LiveQueue where
  downloads : List LiveDownload
  backlog : List LiveDownload
  pending : GoMap Hash ℕ
  heap : ℕ → PendingDownload
  next : ℕ
  downloader : Downloader
  complete : Hash → Bool

def liveDownloadQueueSize : ℕ := 16

namespace LiveQueue

def requests (l : LiveQueue) : List LiveDownload :=
  l.downloads ++ l.backlog ++ l.downloader.inFlight.toList

def providers (l : LiveQueue) (req : LiveDownload) : List EndpointAddr :=
  (l.heap req.pending).providers

def enqueue (l : LiveQueue) (req : LiveDownload) : LiveQueue :=
  if l.downloads.length < liveDownloadQueueSize then { l with downloads := l.downloads ++ [req] }
  else { l with backlog := l.backlog ++ [req] }

/-- `queueDownload` under the mutex. -/
def queueDownload (l : LiveQueue) (hash : Hash) (addr : EndpointAddr) : LiveQueue :=
  match l.pending.get? hash with
  | some p => { l with heap := Function.update l.heap p ((l.heap p).add addr) }
  | none =>
    { l with
      pending := l.pending.set hash l.next
      heap := Function.update l.heap l.next (.new addr)
      next := l.next + 1 }.enqueue ⟨hash, l.next⟩

/-- The loop of `scheduleDownloads`, on the channel and the backlog. -/
def scheduleLoop : List LiveDownload → List LiveDownload → List LiveDownload × List LiveDownload
  | downloads, [] => (downloads, [])
  | downloads, req :: backlog =>
    if downloads.length < liveDownloadQueueSize then scheduleLoop (downloads ++ [req]) backlog
    else (downloads, req :: backlog)

def scheduleDownloads (l : LiveQueue) : LiveQueue :=
  let moved := scheduleLoop l.downloads l.backlog
  { l with downloads := moved.1, backlog := moved.2 }

def forget (l : LiveQueue) (req : LiveDownload) : LiveQueue :=
  if l.pending.get? req.hash = some req.pending then { l with pending := l.pending.delete req.hash }
  else l

/-- `untried`: the providers after the first `tried`; if there are none, the request is forgotten. -/
def untried (l : LiveQueue) (req : LiveDownload) (tried : ℕ) : LiveQueue × List EndpointAddr :=
  let providers := (l.providers req).drop tried
  (if providers = [] then l.forget req else l, providers)

/-- The state `StartLiveSync` leaves, with a blob store that may hold anything. -/
def Started (l : LiveQueue) : Prop :=
  l.downloads = [] ∧ l.backlog = [] ∧ l.pending = .empty ∧ l.downloader = .receiving

/-- One step.  `configured` says whether `opts.downloadBlob` is set, as `StartLiveSync` sets it. -/
inductive Step (configured : Bool) : LiveQueue → LiveQueue → Prop where
  /-- `queueDownload`, of any goroutine. -/
  | announce (l : LiveQueue) (hash : Hash) (addr : EndpointAddr) :
      hash ≠ blake3Empty → Step configured l (l.queueDownload hash addr)
  | blobs (l : LiveQueue) (complete : Hash → Bool) : Step configured l { l with complete := complete }
  | receive (l : LiveQueue) (req : LiveDownload) (rest : List LiveDownload) :
      l.downloader = .receiving → l.downloads = req :: rest →
      Step configured l { l with downloads := rest, downloader := .scheduling req }
  | stop (l : LiveQueue) :
      l.downloader = .receiving → Step configured l { l with downloader := .stopped }
  | schedule (l : LiveQueue) (req : LiveDownload) : l.downloader = .scheduling req →
      Step configured l { l.scheduleDownloads with downloader := .checking req 0 }
  /-- `contentComplete` answers yes. -/
  | held (l : LiveQueue) (req : LiveDownload) (tried : ℕ) :
      l.downloader = .checking req tried → l.complete req.hash = true →
      Step configured l { l with downloader := .forgetting req true }
  /-- `contentComplete` answers no, or fails. -/
  | missing (l : LiveQueue) (req : LiveDownload) (tried : ℕ) :
      l.downloader = .checking req tried → configured = true →
      Step configured l { l with downloader := .asking req tried }
  | unconfigured (l : LiveQueue) (req : LiveDownload) (tried : ℕ) :
      l.downloader = .checking req tried → configured = false →
      Step configured l { l with downloader := .forgetting req false }
  /-- `untried` returns providers. -/
  | attempt (l : LiveQueue) (req : LiveDownload) (tried : ℕ) :
      l.downloader = .asking req tried → (l.untried req tried).2 ≠ [] →
      Step configured l { (l.untried req tried).1 with
        downloader := .downloading req (tried + (l.untried req tried).2.length)
          (l.untried req tried).2 }
  /-- `untried` returns none. -/
  | giveUp (l : LiveQueue) (req : LiveDownload) (tried : ℕ) :
      l.downloader = .asking req tried → (l.untried req tried).2 = [] →
      Step configured l { (l.untried req tried).1 with downloader := .receiving }
  /-- `downloadBlob` fails. -/
  | failed (l : LiveQueue) (req : LiveDownload) (tried : ℕ) (providers : List EndpointAddr) :
      l.downloader = .downloading req tried providers →
      Step configured l { l with downloader := .checking req tried }
  /-- `downloadBlob` succeeds: the blob store has the content. -/
  | downloaded (l : LiveQueue) (req : LiveDownload) (tried : ℕ) (providers : List EndpointAddr) :
      l.downloader = .downloading req tried providers →
      Step configured l { l with
        complete := Function.update l.complete req.hash true, downloader := .forgetting req true }
  | forget (l : LiveQueue) (req : LiveDownload) (ready : Bool) :
      l.downloader = .forgetting req ready →
      Step configured l { l.forget req with
        downloader := if ready then .publishing else .receiving }
  | published (l : LiveQueue) :
      l.downloader = .publishing → Step configured l { l with downloader := .receiving }

end LiveQueue

end Iroh.Docs
