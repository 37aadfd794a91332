import Iroh.GossipProto.State

/-!
# The gossip actor

Reference: `gossip/topic.go`.

A `Gossip` advances the protocol state machine under one lock.  It gives the lock back before it acts on
the outputs, one by one, while other goroutines do the same.  An `Action` is one stretch of a goroutine:
a locked section, one output of a `dispatch`, or a check made without the lock.  A list of actions is an
interleaving.

Objects behind pointers (handles, retry schedules, send queues) are entries of lists, and a pointer is a
place in the list.  Of a queue's writer only the taking out of items is here, and of connections only
that they end.  The event buffers of the subscribers and the metrics are left out.  Generations are numbers
here; as `uint64`s they would come back only after 2^64 new topics.

The fields `emitted`, `queued` and `applied` record what happened; nothing reads them.  `late` are the topics
that a command joined when they had no subscriber, and that nobody subscribed to or closed since.
-/

namespace Iroh.Gossip

open GossipProto

/-- What the actor takes from elsewhere: the hash of a message, the random numbers that a seed gives, and
the peer IDs that `endpointFromPeerID` accepts. -/
structure Env where
  messageIDFromContent : Bytes → MessageID
  newSource : ℕ → Rand
  isEndpointID : PeerID → Bool

def sendQueueCap : ℕ := 64

def outTopic : OutEvent → TopicID
  | .emitEvent topic _ => topic
  | .scheduleTimer topic _ _ => topic
  | .peerData topic _ _ => topic
  | .sendMessage _ _ => .replicate 32 0
  | .disconnectPeer _ => .replicate 32 0

/-- An output of the state machine with its `Generation`. -/
structure Output where
  event : OutEvent
  generation : ℕ
  number : ℕ
deriving DecidableEq

/-- The message of a `sendItem`, with the number of the output that it is. -/
structure QueuedMessage where
  msg : Message
  generation : ℕ
  number : ℕ
deriving DecidableEq

inductive SendItem where
  | message (m : QueuedMessage)
  | disconnect
deriving DecidableEq

def SendItem.number? : SendItem → Option ℕ
  | .message m => some m.number
  | .disconnect => none

/-- `sendQueue`, with the peer that its writer writes to. -/
structure SendQueue where
  peer : PeerID
  items : List SendItem
  dropped : Bool
deriving DecidableEq

/-- `topic.go::Topic`. -/
structure Handle where
  id : TopicID
  closed : Bool
deriving DecidableEq

structure Rejoin where
  generation : ℕ
  peers : List PeerID
deriving DecidableEq

inductive After where
  | done
  | scheduleRejoin (topic : TopicID) (r : ℕ)
  | dropQueues
deriving DecidableEq

/-- A command of a handle; only `closeTopic` and `Shutdown` quit. -/
abbrev HandleCommand := { cmd : TopicCommand // cmd ≠ .quit }

/-- A call in progress: `JoinPeers` past its check, a command before its locked section, or the outputs
that are still to be acted on.  `waiting` is the full queue that `enqueue` waits for, and `bounded` says
that the caller's context may end. -/
inductive Call where
  | joinPeers (t : ℕ) (peers : List PeerID)
  | command (topic : TopicID) (cmd : HandleCommand)
  | dispatch (events : List Output) (waiting : Option ℕ) (bounded : Bool) (after : After)
deriving DecidableEq

def Call.events : Call → List Output
  | .dispatch events _ _ _ => events
  | _ => []

/-- `topic.go::Gossip`, without the addresses and senders of peers; then its goroutines, its timers and the
records of what happened. -/
structure Actor where
  state : State
  topics : GoMap TopicID (GoSet ℕ)
  neighbors : GoMap TopicID (GoSet PeerID)
  generations : GoMap TopicID ℕ
  rejoins : GoMap TopicID ℕ
  nextGeneration : ℕ
  sendQueues : GoMap PeerID ℕ
  closed : Bool
  handles : List Handle
  schedules : List Rejoin
  queues : List SendQueue
  timers : List Timer
  rejoinTimers : List (TopicID × ℕ)
  calls : GoMap ℕ Call
  nextCall : ℕ
  emitted : List Output
  queued : List (PeerID × ℕ)
  applied : List Output
  late : GoSet TopicID

/-- `NewGossip`, for the state machine that it makes. -/
def newGossip (state : State) : Actor where
  state := state
  topics := .empty
  neighbors := .empty
  generations := .empty
  rejoins := .empty
  nextGeneration := 0
  sendQueues := .empty
  closed := false
  handles := []
  schedules := []
  queues := []
  timers := []
  rejoinTimers := []
  calls := .empty
  nextCall := 0
  emitted := []
  queued := []
  applied := []
  late := .empty

namespace Actor

def generation (a : Actor) (topic : TopicID) : ℕ := (a.generations.get? topic).getD 0

/-- `g.topics[topic]`, a nil map being empty. -/
def subscribers (a : Actor) (topic : TopicID) : GoSet ℕ := (a.topics.get? topic).getD .empty

/-- `g.neighbors[topic]`, a nil map being empty. -/
def neighborsOf (a : Actor) (topic : TopicID) : GoSet PeerID := (a.neighbors.get? topic).getD .empty

def spawn (a : Actor) (call : Call) : Actor :=
  { a with calls := a.calls.set a.nextCall call, nextCall := a.nextCall + 1 }

/-! ## Send queues -/

def queueLocked (a : Actor) (peer : PeerID) (item : SendItem) (start : Bool) :
    Actor × Option ℕ × Bool :=
  match a.sendQueues.get? peer with
  | none =>
    if !start then (a, none, false)
    else
      ({ a with
          sendQueues := a.sendQueues.set peer a.queues.length
          queues := a.queues ++ [⟨peer, [item], false⟩]
          queued := a.queued ++ item.number?.toList.map fun n => (peer, n) },
        some a.queues.length, true)
  | some q =>
    match a.queues[q]? with
    | none => (a, some q, false)
    | some s =>
      if sendQueueCap ≤ s.items.length then (a, some q, false)
      else
        ({ a with
            queues := a.queues.set q { s with items := s.items ++ [item] }
            queued := a.queued ++ item.number?.toList.map fun n => (peer, n) },
          some q, true)

def isDropped (a : Actor) (q : ℕ) : Bool := (a.queues[q]?.map SendQueue.dropped).getD false

/-- One round of the loop of `enqueue`: the queue to wait for, if the item has to wait. -/
def enqueue (a : Actor) (waiting : Option ℕ) (peer : PeerID) (item : SendItem) (start : Bool) :
    Actor × Option ℕ :=
  if waiting.any a.isDropped then (a, none)
  else
    let q := a.queueLocked peer item start
    (q.1, if q.2.2 then none else q.2.1)

def dropQueueLocked (a : Actor) (peer : PeerID) (q : ℕ) : Actor :=
  { a with
    queues := a.queues.modify q fun s => { s with items := [], dropped := true }
    sendQueues := if a.sendQueues.get? peer = some q then a.sendQueues.delete peer else a.sendQueues }

def abandonQueue (a : Actor) (peer : PeerID) : Actor :=
  match a.sendQueues.get? peer with
  | none => a
  | some q => if a.isDropped q then a else a.dropQueueLocked peer q

/-- The end of `Shutdown`, which drops the queues that are left. -/
def dropQueues (a : Actor) : Actor :=
  a.sendQueues.toList.foldl (fun a e => a.dropQueueLocked e.1 e.2) a

/-- The head of the loop of `writeQueue`. -/
def writeQueue (a : Actor) (q : ℕ) : Actor :=
  match a.queues[q]? with
  | none => a
  | some s =>
    if s.dropped || s.items.isEmpty then
      if a.sendQueues.get? s.peer = some q then { a with sendQueues := a.sendQueues.delete s.peer }
      else a
    else { a with queues := a.queues.set q { s with items := s.items.tail } }

section Env

variable (env : Env)

def handleLocked (a : Actor) (ev : InEvent) : Actor × List Output :=
  let q := a.state.handle env.messageIDFromContent env.newSource ev
  let out := q.2.mapIdx fun i event =>
    ⟨event, a.generation (outTopic event), a.emitted.length + i⟩
  ({ a with state := q.1, emitted := a.emitted ++ out }, out)

/-- `handleLocked` and the goroutine that dispatches its outputs. -/
def handleAndDispatch (a : Actor) (ev : InEvent) (bounded : Bool) : Actor :=
  let q := a.handleLocked env ev
  q.1.spawn (.dispatch q.2 none bounded .done)

def joinLocked (a : Actor) (topic : TopicID) (peers : List PeerID) (now : Time) :
    Actor × List Output :=
  a.handleLocked env ⟨.command topic (.join peers), now⟩

/-! ## Acting on outputs -/

/-- The peer whose ID `publicEvent` converts. -/
def publicPeer : TopicEvent → PeerID
  | .neighborUp peer => peer
  | .neighborDown peer => peer
  | .received _ deliveredFrom _ => deliveredFrom

/-- `emit`, for the event of the output `o`. -/
def emit (a : Actor) (o : Output) (topic : TopicID) (ev : TopicEvent) : Actor :=
  if !env.isEndpointID (publicPeer ev) then a
  else if a.generation topic ≠ o.generation then a
  else
    match ev with
    | .neighborUp peer =>
      if !a.topics.contains topic then a
      else { a with
        neighbors := a.neighbors.set topic ((a.neighborsOf topic).set peer ())
        applied := a.applied ++ [o] }
    | .neighborDown peer =>
      { a with
        neighbors :=
          match a.neighbors.get? topic with
          | none => a.neighbors
          | some peers => a.neighbors.set topic (peers.delete peer)
        applied := a.applied ++ [o] }
    | .received _ _ _ => a

/-- One output of `dispatch`, and the queue to wait for if it has to wait. -/
def dispatchEvent (a : Actor) (o : Output) (waiting : Option ℕ) : Actor × Option ℕ :=
  match o.event with
  | .sendMessage dest message => a.enqueue waiting dest (.message ⟨message, 0, o.number⟩) true
  | .emitEvent topic event => (a.emit env o topic event, none)
  | .scheduleTimer _ _ timer => ({ a with timers := a.timers ++ [timer] }, none)
  | .disconnectPeer dest => a.enqueue waiting dest .disconnect false
  | .peerData _ _ _ => (a, none)

def giveUpEvent (a : Actor) (o : Output) : Option Actor :=
  match o.event with
  | .sendMessage _ _ => some a
  | .disconnectPeer dest => some (a.abandonQueue dest)
  | _ => none

/-- What is left to do after `dispatch`. -/
def finish (a : Actor) : After → Actor
  | .done => a
  | .scheduleRejoin topic r => { a with rejoinTimers := a.rejoinTimers ++ [(topic, r)] }
  | .dropQueues => a.dropQueues

/-! ## Subscriptions -/

/-- The entries that `SubscribeWithOpts` makes for a topic without subscribers. -/
def openTopic (a : Actor) (topic : TopicID) : Actor :=
  if a.topics.contains topic then a
  else { a with
    topics := a.topics.set topic .empty
    nextGeneration := a.nextGeneration + 1
    generations := a.generations.set topic (a.nextGeneration + 1) }

def rejoinLocked (a : Actor) (topic : TopicID) (peers : List PeerID) : Actor :=
  let add (r : Rejoin) : Rejoin :=
    { r with peers := peers.foldl (fun ps p => if p ∈ ps then ps else ps ++ [p]) r.peers }
  if peers.length = 0 then a
  else
    match a.rejoins.get? topic with
    | some r => { a with schedules := a.schedules.modify r add }
    | none =>
      { a with
        rejoins := a.rejoins.set topic a.schedules.length
        schedules := a.schedules ++ [add ⟨a.generation topic, []⟩]
        rejoinTimers := a.rejoinTimers ++ [(topic, a.schedules.length)] }

def addHandle (a : Actor) (topic : TopicID) : Actor :=
  { a with
    handles := a.handles ++ [⟨topic, false⟩]
    topics := a.topics.set topic ((a.subscribers topic).set a.handles.length ())
    late := a.late.delete topic }

/-- `SubscribeWithOpts`. -/
def subscribe (a : Actor) (topic : TopicID) (peers : List PeerID) (now : Time) : Actor :=
  if a.closed then a
  else
    let a := (a.openTopic topic).addHandle topic
    let q := a.joinLocked env topic peers now
    (q.1.rejoinLocked topic peers).spawn (.dispatch q.2 none true .done)

/-- The locked section of `JoinPeers`. -/
def joinPeersLocked (a : Actor) (i t : ℕ) (peers : List PeerID) : Actor :=
  match a.handles[t]? with
  | none => a
  | some h =>
    let a := if h.closed then a else a.rejoinLocked h.id peers
    { a with calls := a.calls.set i (.command h.id ⟨.join peers, by simp⟩) }

def noteLate (a : Actor) (topic : TopicID) (cmd : TopicCommand) : Actor :=
  match cmd with
  | .join _ =>
    if a.topics.contains topic then a else { a with late := a.late.set topic () }
  | _ => a

/-- The locked section of `command`. -/
def command (a : Actor) (i : ℕ) (topic : TopicID) (cmd : HandleCommand) (now : Time) : Actor :=
  if a.closed then { a with calls := a.calls.delete i }
  else
    let q := (a.noteLate topic cmd.1).handleLocked env ⟨.command topic cmd.1, now⟩
    { q.1 with calls := q.1.calls.set i (.dispatch q.2 none true .done) }

def closeEvents (a : Actor) (t : ℕ) : Actor :=
  { a with handles := a.handles.modify t fun h => { h with closed := true } }

def dropHandle (a : Actor) (topic : TopicID) (t : ℕ) : Actor :=
  match a.topics.get? topic with
  | none => a
  | some subs => { a with topics := a.topics.set topic (subs.delete t) }

/-- What `closeTopic` forgets with the last handle of a topic. -/
def forgetTopic (a : Actor) (topic : TopicID) : Actor :=
  { a with
    topics := a.topics.delete topic
    neighbors := a.neighbors.delete topic
    generations := a.generations.delete topic
    rejoins := a.rejoins.delete topic }

def closeTopic (a : Actor) (t : ℕ) (now : Time) : Actor :=
  match a.handles[t]? with
  | none => a
  | some h =>
    let a := (a.closeEvents t).dropHandle h.id t
    if (a.subscribers h.id).len ≠ 0 then a.spawn (.dispatch [] none false .done)
    else
      let a := a.forgetTopic h.id
      if a.closed then a.spawn (.dispatch [] none false .done)
      else
        let a := { a with late := a.late.delete h.id }
        a.handleAndDispatch env ⟨.command h.id .quit, now⟩ false

/-- A join of a retry schedule is queued under the lock; one whose queue is full is skipped. -/
def queueJoin (generation : ℕ) (a : Actor) (o : Output) : Actor :=
  match o.event with
  | .sendMessage dest message =>
    (a.queueLocked dest (.message ⟨message, generation, o.number⟩) true).1
  | _ => a

def rejoin (a : Actor) (topic : TopicID) (r : ℕ) (now : Time) : Actor :=
  if (topic, r) ∉ a.rejoinTimers then a
  else
    let a := { a with rejoinTimers := a.rejoinTimers.erase (topic, r) }
    if a.closed || a.rejoins.get? topic ≠ some r then a
    else if 0 < (a.neighborsOf topic).len then { a with rejoins := a.rejoins.delete topic }
    else
      match a.schedules[r]? with
      | none => a
      | some s =>
        let q := a.joinLocked env topic s.peers now
        let rest := q.2.filter fun o =>
          match o.event with
          | .sendMessage _ _ => false
          | _ => true
        (q.2.foldl (queueJoin s.generation) q.1).spawn
          (.dispatch rest none false (.scheduleRejoin topic r))

/-- One topic of the loop of `Shutdown`. -/
def shutdownTopic (now : Time) (q : Actor × List Output) (topic : TopicID) : Actor × List Output :=
  let q' := q.1.handleLocked env ⟨.command topic .quit, now⟩
  ((q'.1.subscribers topic).keys.foldl closeEvents q'.1, q.2 ++ q'.2)

/-- `Shutdown` up to its dispatch.  The topics are quit in the order in which the map gives them. -/
def shutdown (a : Actor) (order : List TopicID) (now : Time) : Actor :=
  if a.closed || !decide (order.Perm a.topics.keys) then a
  else
    let q := order.foldl (shutdownTopic env now) ({ a with closed := true }, [])
    let a := { q.1 with topics := .empty, neighbors := .empty, generations := .empty, rejoins := .empty }
    a.spawn (.dispatch q.2 none true .dropQueues)

/-! ## Goroutines -/

def proceed (a : Actor) (i : ℕ) (now : Time) : Actor :=
  match a.calls.get? i with
  | none => a
  | some (.joinPeers t peers) => a.joinPeersLocked i t peers
  | some (.command topic cmd) => a.command env i topic cmd now
  | some (.dispatch [] _ _ after) =>
    let a := { a with calls := a.calls.delete i }
    a.finish after
  | some (.dispatch (o :: rest) waiting bounded after) =>
    let q := a.dispatchEvent env o waiting
    let events := if q.2.isSome then o :: rest else rest
    { q.1 with calls := q.1.calls.set i (.dispatch events q.2 bounded after) }

def giveUp (a : Actor) (i : ℕ) : Actor :=
  match a.calls.get? i with
  | some (.dispatch (o :: rest) (some _) true after) =>
    match a.giveUpEvent o with
    | none => a
    | some a' => { a' with calls := a'.calls.set i (.dispatch rest none true after) }
  | _ => a

inductive Action where
  /-- `Subscribe`, up to its dispatch. -/
  | subscribe (topic : TopicID) (peers : List PeerID) (now : Time)
  /-- `JoinPeers` finds its handle open, or returns. -/
  | joinPeers (t : ℕ) (peers : List PeerID)
  /-- `Broadcast` or `BroadcastNeighbors` finds its handle open, or returns. -/
  | broadcast (t : ℕ) (content : Bytes) (scope : Scope)
  /-- `Close`, up to its dispatch. -/
  | close (t : ℕ) (now : Time)
  | receive (sender : PeerID) (message : Message) (now : Time)
  /-- `Accept` returns from a connection that has ended. -/
  | disconnected (peer : PeerID) (now : Time)
  | timer (timer : Timer) (now : Time)
  | rejoin (topic : TopicID) (r : ℕ) (now : Time)
  | write (q : ℕ)
  | dropPeer (q : ℕ) (now : Time)
  /-- `Shutdown`, up to its dispatch. -/
  | shutdown (order : List TopicID) (now : Time)
  | proceed (i : ℕ) (now : Time)
  | giveUp (i : ℕ)
deriving DecidableEq

def ifOpen (a : Actor) (t : ℕ) (call : Handle → Call) : Actor :=
  match a.handles[t]? with
  | none => a
  | some h => if h.closed then a else a.spawn (call h)

def dropPeer (a : Actor) (q : ℕ) (now : Time) : Actor :=
  match a.queues[q]? with
  | none => a
  | some s =>
    if s.dropped || a.sendQueues.get? s.peer ≠ some q then a
    else (a.dropQueueLocked s.peer q).handleAndDispatch env ⟨.peerDisconnected s.peer, now⟩ false

def step (a : Actor) : Action → Actor
  | .subscribe topic peers now => a.subscribe env topic peers now
  | .joinPeers t peers => a.ifOpen t fun _ => .joinPeers t peers
  | .broadcast t content scope => a.ifOpen t fun h => .command h.id ⟨.broadcast content scope, by simp⟩
  | .close t now => a.closeTopic env t now
  | .receive sender message now => a.handleAndDispatch env ⟨.recvMessage sender message, now⟩ false
  | .disconnected peer now => a.handleAndDispatch env ⟨.peerDisconnected peer, now⟩ false
  | .timer timer now =>
    if timer ∉ a.timers then a
    else
      let a := { a with timers := a.timers.erase timer }
      if a.closed then a else a.handleAndDispatch env ⟨.timerExpired timer, now⟩ false
  | .rejoin topic r now => a.rejoin env topic r now
  | .write q => a.writeQueue q
  | .dropPeer q now => a.dropPeer env q now
  | .shutdown order now => a.shutdown env order now
  | .proceed i now => a.proceed env i now
  | .giveUp i => a.giveUp i

end Env

/-! ## What is left alone -/

def OnlyQueues (a a' : Actor) : Prop :=
  ∃ sendQueues queues timers rejoinTimers schedules, a' = { a with
      sendQueues := sendQueues
      queues := queues
      timers := timers
      rejoinTimers := rejoinTimers
      schedules := schedules }

lemma OnlyQueues.refl (a : Actor) : OnlyQueues a a := ⟨_, _, _, _, _, rfl⟩

lemma OnlyQueues.trans {a a' a'' : Actor} (h : OnlyQueues a a') (h' : OnlyQueues a' a'') :
    OnlyQueues a a'' := by
  obtain ⟨_, _, _, _, _, rfl⟩ := h
  obtain ⟨_, _, _, _, _, rfl⟩ := h'
  exact ⟨_, _, _, _, _, rfl⟩

def Queued (a a' : Actor) (peer : PeerID) (item : SendItem) : Prop :=
  OnlyQueues a a' ∨
    OnlyQueues { a with queued := a.queued ++ item.number?.toList.map fun n => (peer, n) } a'

variable (a : Actor) (peer : PeerID)

lemma queued_queueLocked (item : SendItem) (start : Bool) :
    Queued a (a.queueLocked peer item start).1 peer item := by
  unfold queueLocked
  split
  · split
    · exact .inl (.refl a)
    · exact .inr ⟨_, _, _, _, _, rfl⟩
  · split
    · exact .inl (.refl a)
    · split
      · exact .inl (.refl a)
      · exact .inr ⟨_, _, _, _, _, rfl⟩

lemma queued_enqueue (waiting : Option ℕ) (peer : PeerID) (item : SendItem) (start : Bool) :
    Queued a (a.enqueue waiting peer item start).1 peer item := by
  unfold enqueue
  split
  · exact .inl (.refl a)
  · exact a.queued_queueLocked peer item start

lemma onlyQueues_dropQueueLocked (q : ℕ) :
    OnlyQueues a (a.dropQueueLocked peer q) := ⟨_, _, _, _, _, rfl⟩

lemma giveUpEvent_eq_some {a a' : Actor} {o : Output} (h : a.giveUpEvent o = some a') :
    OnlyQueues a a' ∧ ∀ topic ev, o.event ≠ .emitEvent topic ev := by
  unfold giveUpEvent at h
  split at h
  next hev =>
    cases h
    exact ⟨.refl a, by simp [hev]⟩
  next hev =>
    cases h
    refine ⟨?_, by simp [hev]⟩
    unfold abandonQueue
    split
    · exact .refl a
    · split
      · exact .refl a
      · exact a.onlyQueues_dropQueueLocked _ _
  · cases h

lemma onlyQueues_writeQueue (q : ℕ) : OnlyQueues a (a.writeQueue q) := by
  unfold writeQueue
  split
  · exact .refl a
  · split
    · split
      · exact ⟨_, _, _, _, _, rfl⟩
      · exact .refl a
    · exact ⟨_, _, _, _, _, rfl⟩

lemma onlyQueues_finish (after : After) : OnlyQueues a (a.finish after) := by
  cases after with
  | done => exact .refl a
  | scheduleRejoin topic r => exact ⟨_, _, _, _, _, rfl⟩
  | dropQueues =>
    apply List.foldlRecOn (motive := OnlyQueues a) a.sendQueues.toList _ (.refl a)
    intro a' h e _
    exact h.trans (a'.onlyQueues_dropQueueLocked e.1 e.2)

lemma rejoinLocked_eq (topic : TopicID) (peers : List PeerID) :
    a.rejoinLocked topic peers = a ∨ ∃ rejoins schedules rejoinTimers,
      (∀ t, t ∈ rejoins.keys ↔ t = topic ∨ t ∈ a.rejoins.keys) ∧ a.rejoinLocked topic peers =
          { a with rejoins := rejoins, schedules := schedules, rejoinTimers := rejoinTimers } := by
  unfold rejoinLocked
  split
  · exact .inl rfl
  · right
    cases hr : a.rejoins.get? topic with
    | none => exact ⟨_, _, _, fun t => GoMap.mem_keys_set, rfl⟩
    | some r =>
      refine ⟨a.rejoins, _, _, fun t => (or_iff_right_of_imp ?_).symm, rfl⟩
      rintro rfl
      exact GoMap.mem_keys_iff.mpr ⟨r, hr⟩

lemma emit_eq (env : Env) (a : Actor) (o : Output) (topic : TopicID) (ev : TopicEvent) :
    a.emit env o topic ev = a ∨ ∃ neighbors, a.emit env o topic ev =
      { a with neighbors := neighbors, applied := a.applied ++ [o] } := by
  unfold emit
  split
  · exact .inl rfl
  · split
    · exact .inl rfl
    · cases ev with
      | neighborUp peer =>
        dsimp only
        split
        · exact .inl rfl
        · exact .inr ⟨_, rfl⟩
      | neighborDown peer => exact .inr ⟨_, rfl⟩
      | received content sender scope => exact .inl rfl

end Actor

end Iroh.Gossip
