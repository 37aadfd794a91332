import Iroh.Docs.LiveQueue

/-!
# Peer syncs of live sync

Reference: `docs/live.go::syncPeers`, `docs/live_workers.go`.

`syncPeers` is called by any number of goroutines.  A call goes through the peers it names: it records
the address of each and, if no other call is syncing with that peer, does so itself, again and again
until nobody has asked for another round; otherwise it leaves a note with the call that is.

A step of the model is one section under the mutex, or the start or the end of an attempt, which is
outside: `opts.syncPeer`, which `StartLiveSync` always sets.  `l.syncing` points to the note,
`livePeerSync.again`.
-/

namespace Iroh.Docs

/-- Where a call of `syncPeers` is.  `rest` are the peers it has yet to come to, and `running` is its
`livePeerSync`. -/
inductive SyncCall where
  | waiting (peers : List EndpointAddr)
  /-- At the head of the loop over `peers`. -/
  | next (peers : List EndpointAddr)
  /-- Before `opts.syncPeer`. -/
  | starting (peer : EndpointAddr) (running : ℕ) (rest : List EndpointAddr)
  /-- In `opts.syncPeer`. -/
  | attempting (peer : EndpointAddr) (running : ℕ) (rest : List EndpointAddr)
  | finishing (peer : EndpointAddr) (running : ℕ) (rest : List EndpointAddr)

def SyncCall.left : SyncCall → List EndpointAddr
  | .waiting peers => peers
  | .next peers => peers
  | .starting _ _ rest => rest
  | .attempting _ _ rest => rest
  | .finishing _ _ rest => rest

/-- The peer a call is syncing with, and its `livePeerSync`. -/
def SyncCall.syncing : SyncCall → Option (EndpointID × ℕ)
  | .waiting _ => none
  | .next _ => none
  | .starting peer running _ => some (peer.id, running)
  | .attempting peer running _ => some (peer.id, running)
  | .finishing peer running _ => some (peer.id, running)

/-- The parts of `LiveSync` that peer syncs use, and the calls of `syncPeers`, one for every `c : ι`.
A pointer is a number, and `fresh` the next one that `new` gives out. -/
structure PeerSync (ι : Type) where
  peers : GoMap EndpointID EndpointAddr
  syncing : GoMap EndpointID ℕ
  /-- `livePeerSync.again`. -/
  again : ℕ → Bool
  fresh : ℕ
  /-- `ctx.Err() != nil`. -/
  cancelled : Bool
  call : ι → SyncCall

namespace PeerSync

variable {ι : Type}

/-- Before any call, in which `c` is going to name `args c`. -/
def Idle (args : ι → List EndpointAddr) (s : PeerSync ι) : Prop :=
  s.peers = .empty ∧ s.syncing = .empty ∧ ∀ c, s.call c = .waiting (args c)

/-- What a call holds in `syncing`. -/
def holds (s : PeerSync ι) (c : ι) : Option (EndpointID × ℕ) := (s.call c).syncing

variable [DecidableEq ι]

def move (s : PeerSync ι) (c : ι) (pc : SyncCall) : PeerSync ι :=
  { s with call := Function.update s.call c pc }

/-- The section of `syncPeers` that records a peer, by the call `c`. -/
def record (s : PeerSync ι) (c : ι) (peer : EndpointAddr) (rest : List EndpointAddr) : PeerSync ι :=
  let s := { s with peers := s.peers.set peer.id peer }
  match s.syncing.get? peer.id with
  | some running => { s with again := Function.update s.again running true }.move c (.next rest)
  | none =>
    { s with
      syncing := s.syncing.set peer.id s.fresh
      again := Function.update s.again s.fresh false
      fresh := s.fresh + 1 }.move c (.starting peer s.fresh rest)

/-- The section after an attempt of the call `c`. -/
def finish (s : PeerSync ι) (c : ι) (peer : EndpointAddr) (running : ℕ) (rest : List EndpointAddr) :
    PeerSync ι :=
  let again := s.again running && !s.cancelled
  let s := { s with again := Function.update s.again running false }
  if again then
    let peer := (s.peers.get? peer.id).getD ⟨Vector.replicate 32 0, []⟩
    s.move c (.starting peer running rest)
  else { s with syncing := s.syncing.delete peer.id }.move c (.next rest)

inductive Step : PeerSync ι → PeerSync ι → Prop where
  | cancel (s : PeerSync ι) : Step s { s with cancelled := true }
  | enter (s : PeerSync ι) (c : ι) (peers : List EndpointAddr) :
      s.call c = .waiting peers → Step s (s.move c (.next peers))
  | record (s : PeerSync ι) (c : ι) (peer : EndpointAddr) (rest : List EndpointAddr) :
      s.call c = .next (peer :: rest) → Step s (s.record c peer rest)
  /-- `opts.syncPeer` is called. -/
  | start (s : PeerSync ι) (c : ι) (peer : EndpointAddr) (running : ℕ) (rest : List EndpointAddr) :
      s.call c = .starting peer running rest → Step s (s.move c (.attempting peer running rest))
  /-- `opts.syncPeer` returns. -/
  | attempted (s : PeerSync ι) (c : ι) (peer : EndpointAddr) (running : ℕ) (rest : List EndpointAddr) :
      s.call c = .attempting peer running rest → Step s (s.move c (.finishing peer running rest))
  | finish (s : PeerSync ι) (c : ι) (peer : EndpointAddr) (running : ℕ) (rest : List EndpointAddr) :
      s.call c = .finishing peer running rest → Step s (s.finish c peer running rest)

def LiveStep (s s' : PeerSync ι) : Prop := Step s s' ∧ s'.cancelled = false

end PeerSync

end Iroh.Docs
