import Iroh.Gossip.Actor

/-!
# The connections to one peer

Reference: `gossip/topic.go` (`Accept`, `queueLocked`, `writeQueue`, `send`, `connect`, `dropPeer`,
`abandonQueue`, `disconnect`, `Shutdown`), `gossip/gossip.go` (`Sender`).

For each peer the node has one place for a sender, `g.peerSenders[peer]`, and one for a queue,
`g.sendQueues[peer]`.  Each connection is served by a goroutine in `Accept`, which registers a sender
of its own; a connection that a writer has dialled is registered by the writer as well.  Each queue has
its writer.  A `LinkAction` is one stretch of a goroutine: a locked section, a dial, a write to a
stream, or the close of a connection or of a sender's streams.

Connections, senders, queues and goroutines are entries of lists, and a pointer is a place in the list.
Whether a dial or a write works, whether an address is known and whether a message is stale are given by
the action.  A stretch that cannot happen does nothing.

The fields `unregistered`, `events` and `epoch` record what happened; nothing reads them.
-/

namespace Iroh.Gossip

open GossipProto

/-- `gossip.go::Sender`: the connection and the stream of each topic. -/
structure Sender where
  conn : ℕ
  streams : GoMap TopicID ℕ

inductive Writer where
  /-- At the head of the loop of `writeQueue`. -/
  | head
  /-- Before the locked section of `disconnect`. -/
  | disconnecting
  | closing (s : ℕ)
  /-- In `send`, before it looks for a sender. -/
  | taken (m : QueuedMessage)
  /-- In `connect`, before the dial returns. -/
  | dialing (m : QueuedMessage)
  /-- In `connect`, before it publishes the connection. -/
  | dialed (m : QueuedMessage) (conn : ℕ)
  /-- In `connect`, before it closes the connection that nothing would own. -/
  | abandoning (conn : ℕ)
  /-- In `send`, with a sender. -/
  | chosen (m : QueuedMessage) (s : ℕ)
  /-- In `Sender.Send`. -/
  | writing (m : QueuedMessage) (s : ℕ)
  /-- `send` has failed. -/
  | failed
  | done
deriving DecidableEq

/-- `sendQueue` with its writer. -/
structure WriterQueue where
  items : List SendItem
  sender : Option ℕ
  dropped : Bool
  writer : Writer
deriving DecidableEq

inductive AcceptCall where
  | starting (conn : ℕ)
  | serving (conn : ℕ) (s : ℕ)
  | done
deriving DecidableEq

/-- A message that was written to a stream.  `single` says that the peer had one open connection. -/
structure Written where
  sender : ℕ
  topic : TopicID
  stream : ℕ
  number : ℕ
  disconnect : Bool
  epoch : ℕ
  single : Bool
deriving DecidableEq

inductive StreamEvent where
  | opened (s : ℕ) (topic : TopicID) (stream : ℕ)
  | wrote (w : Written)
  | closed (s : ℕ)
deriving DecidableEq

/-- What a `Gossip` keeps for one peer; then the objects it points to, its goroutines, and the records of
what happened. -/
structure PeerLink where
  peerSender : Option ℕ
  sendQueue : Option ℕ
  closed : Bool
  conns : List Bool
  senders : List Sender
  queues : List WriterQueue
  accepts : List AcceptCall
  closeConns : List ℕ
  closeSenders : List ℕ
  nextNumber : ℕ
  nextStream : ℕ
  epoch : ℕ
  unregistered : List ℕ
  events : List StreamEvent

def newPeerLink : PeerLink where
  peerSender := none
  sendQueue := none
  closed := false
  conns := []
  senders := []
  queues := []
  accepts := []
  closeConns := []
  closeSenders := []
  nextNumber := 0
  nextStream := 0
  epoch := 0
  unregistered := []
  events := []

def isDisconnect (msg : TopicMessage) : Bool :=
  match msg with
  | .swarm (.disconnect _) => true
  | _ => false

/-- How a `Sender.Send` ends: with the message written, or with the error of one of its steps. -/
inductive SendOutcome where
  | sent
  | openFailed
  | writeFailed
  | closeFailed
deriving DecidableEq

structure Choice where
  hasAddr : Bool
  dialed : Bool
  stale : Bool
  outcome : SendOutcome
deriving DecidableEq

namespace PeerLink

def isOpen (l : PeerLink) (conn : ℕ) : Bool := l.conns[conn]?.getD false

def hasSingleConn (l : PeerLink) : Bool := l.conns.count true = 1

def openConn (l : PeerLink) : PeerLink :=
  { l with conns := l.conns ++ [true], epoch := l.epoch + 1 }

def closeConn (l : PeerLink) (conn : ℕ) : PeerLink :=
  if l.isOpen conn then { l with conns := l.conns.set conn false, epoch := l.epoch + 1 } else l

/-- `NewSender` and its entry in `peerSenders`; the sender is the last of the list. -/
def register (l : PeerLink) (conn : ℕ) : PeerLink :=
  { l with
    senders := l.senders ++ [⟨conn, .empty⟩]
    peerSender := some l.senders.length }

def unregister (l : PeerLink) : PeerLink :=
  { l with
    peerSender := none
    unregistered := l.unregistered ++ l.peerSender.toList }

/-- The first locked section of `Accept`. -/
def accept (l : PeerLink) (i : ℕ) : PeerLink :=
  match l.accepts[i]? with
  | some (.starting conn) =>
    if l.closed then { l with accepts := l.accepts.set i .done }
    else { l.register conn with accepts := l.accepts.set i (.serving conn l.senders.length) }
  | _ => l

/-- The last locked section of `Accept`, which also gives the state machine its input. -/
def acceptReturns (l : PeerLink) (i : ℕ) : PeerLink :=
  match l.accepts[i]? with
  | some (.serving _ s) =>
    let l := if l.peerSender = some s then l.unregister else l
    { l with accepts := l.accepts.set i .done }
  | _ => l

/-! ## Streams -/

def closeSender (l : PeerLink) (s : ℕ) : PeerLink :=
  { l with
    senders := l.senders.modify s fun sd => { sd with streams := .empty }
    events := l.events ++ [.closed s] }

/-- The rest of `Sender.Send`, once there is a stream. -/
def writeFrame (l : PeerLink) (s stream : ℕ) (m : QueuedMessage) (outcome : SendOutcome) :
    PeerLink × Bool :=
  let topic := m.msg.topic
  let disconnect := isDisconnect m.msg.message
  if outcome = .writeFailed then (l, false)
  else
    ({ l with
        senders := l.senders.modify s fun sd =>
          { sd with streams := if disconnect then sd.streams.delete topic else sd.streams }
        events := l.events ++
          [.wrote ⟨s, topic, stream, m.number, disconnect, l.epoch, l.hasSingleConn⟩] },
      !(disconnect && outcome = .closeFailed))

def openStream (l : PeerLink) (s : ℕ) (topic : TopicID) : PeerLink :=
  { l with
    senders := l.senders.modify s fun sd => { sd with streams := sd.streams.set topic l.nextStream }
    nextStream := l.nextStream + 1
    events := l.events ++ [.opened s topic l.nextStream] }

/-- `Sender.Send`.  On a connection that has ended all writes fail. -/
def send (l : PeerLink) (s : ℕ) (m : QueuedMessage) (outcome : SendOutcome) : PeerLink × Bool :=
  match l.senders[s]? with
  | none => (l, false)
  | some sd =>
    if !l.isOpen sd.conn then (l, false)
    else
      match sd.streams.get? m.msg.topic with
      | some stream => l.writeFrame s stream m outcome
      | none =>
        if outcome = .openFailed then (l, false)
        else (l.openStream s m.msg.topic).writeFrame s l.nextStream m outcome

/-! ## Queues -/

/-- `queueLocked`, which gives the item the next number of the peer. -/
def enqueue (l : PeerLink) (item : ℕ → SendItem) (start : Bool) : PeerLink :=
  match l.sendQueue with
  | none =>
    if !start then l
    else { l with
      sendQueue := some l.queues.length
      queues := l.queues ++ [⟨[item l.nextNumber], none, false, .head⟩]
      nextNumber := l.nextNumber + 1 }
  | some q =>
    match l.queues[q]? with
    | none => l
    | some s =>
      if sendQueueCap ≤ s.items.length then l
      else { l with
        queues := l.queues.set q { s with items := s.items ++ [item l.nextNumber] }
        nextNumber := l.nextNumber + 1 }

/-- `dropQueueLocked`; the connection of the sender is to be closed. -/
def dropQueueLocked (l : PeerLink) (q : ℕ) (s : WriterQueue) : PeerLink :=
  let l := { l with
    queues := l.queues.set q { s with items := [], dropped := true }
    sendQueue := if l.sendQueue = some q then none else l.sendQueue
    closeConns := l.closeConns ++ s.sender.toList }
  if s.sender.isSome && l.peerSender = s.sender then l.unregister else l

/-- `dropPeer`, but for its input to the state machine. -/
def dropPeer (l : PeerLink) (q : ℕ) : PeerLink :=
  match l.queues[q]? with
  | none => l
  | some s => if s.dropped || l.sendQueue ≠ some q then l else l.dropQueueLocked q s

def abandonQueue (l : PeerLink) : PeerLink :=
  match l.sendQueue with
  | none => l
  | some q =>
    match l.queues[q]? with
    | none => l
    | some s => if s.dropped then l else l.dropQueueLocked q s

/-- The locked section of `disconnect`, called by a goroutine that dispatches. -/
def disconnect (l : PeerLink) : PeerLink :=
  { l.unregister with closeSenders := l.closeSenders ++ l.peerSender.toList }

/-- The last locked section of `Shutdown`. -/
def shutdownEnd (l : PeerLink) : PeerLink :=
  if !l.closed then l
  else
    let l :=
      match l.sendQueue with
      | none => l
      | some q =>
        match l.queues[q]? with
        | none => l
        | some s => l.dropQueueLocked q s
    l.disconnect

/-! ## Writers -/

def setWriter (l : PeerLink) (q : ℕ) (writer : Writer) : PeerLink :=
  { l with queues := l.queues.modify q fun s => { s with writer := writer } }

def takeItem (l : PeerLink) (q : ℕ) (s : WriterQueue) : PeerLink :=
  match s.dropped, s.items with
  | false, .message m :: items =>
    { l with queues := l.queues.set q { s with items := items, writer := .taken m } }
  | false, .disconnect :: items =>
    { l with queues := l.queues.set q { s with items := items, writer := .disconnecting } }
  | _, _ =>
    { l with
      queues := l.queues.set q { s with writer := .done }
      sendQueue := if l.sendQueue = some q then none else l.sendQueue }

/-- The publication of a dialled connection by `connect`, and the goroutine that it starts. -/
def publish (l : PeerLink) (q : ℕ) (s : WriterQueue) (m : QueuedMessage) (conn : ℕ) : PeerLink :=
  { l.register conn with
    queues := l.queues.set q
      { s with sender := some l.senders.length, writer := .chosen m l.senders.length }
    accepts := l.accepts ++ [.starting conn] }

def write (l : PeerLink) (q : ℕ) (choice : Choice) : PeerLink :=
  match l.queues[q]? with
  | none => l
  | some s =>
    match s.writer with
    | .head => l.takeItem q s
    | .disconnecting =>
      match l.peerSender with
      | none => l.setWriter q .head
      | some t => l.unregister.setWriter q (.closing t)
    | .closing t => (l.closeSender t).setWriter q .head
    | .taken m =>
      match l.peerSender with
      | some t => l.setWriter q (.chosen m t)
      | none => l.setWriter q (if choice.hasAddr then .dialing m else .failed)
    | .dialing m =>
      if choice.dialed then l.openConn.setWriter q (.dialed m l.conns.length)
      else l.setWriter q .failed
    | .dialed m conn =>
      if s.dropped then l.setWriter q (.abandoning conn) else l.publish q s m conn
    | .abandoning conn => (l.closeConn conn).setWriter q .failed
    | .chosen m t =>
      if s.dropped then l.setWriter q .failed
      else
        let writer := if m.generation ≠ 0 && choice.stale then Writer.head else .writing m t
        { l with queues := l.queues.set q { s with sender := some t, writer := writer } }
    | .writing m t =>
      let r := l.send t m choice.outcome
      r.1.setWriter q (if r.2 then .head else .failed)
    | .failed => (l.dropPeer q).setWriter q .done
    | .done => l

/-! ## Actions -/

inductive LinkAction where
  /-- The peer's dial arrives, and a goroutine is started in `Accept`. -/
  | incoming
  | ends (conn : ℕ)
  /-- `Accept` registers its sender. -/
  | accept (i : ℕ)
  /-- `Accept` returns, and reports the peer as gone. -/
  | acceptReturns (i : ℕ)
  | enqueue (msg : Message) (generation : ℕ)
  | enqueueDisconnect
  /-- A dispatching goroutine disconnects the peer at once. -/
  | disconnect
  | write (q : ℕ) (choice : Choice)
  | timeout (q : ℕ)
  | abandonQueue
  /-- The connection of a dropped queue's sender is closed. -/
  | closeConn (s : ℕ)
  | closeSender (s : ℕ)
  /-- `Shutdown` begins. -/
  | shutdown
  /-- `Shutdown` drops what is left. -/
  | shutdownEnd
deriving DecidableEq

def step (l : PeerLink) : LinkAction → PeerLink
  | .incoming => { l.openConn with accepts := l.accepts ++ [.starting l.conns.length] }
  | .ends conn => l.closeConn conn
  | .accept i => l.accept i
  | .acceptReturns i => l.acceptReturns i
  | .enqueue msg generation => l.enqueue (fun n => .message ⟨msg, generation, n⟩) true
  | .enqueueDisconnect => l.enqueue (fun _ => .disconnect) false
  | .disconnect => l.disconnect
  | .write q choice => l.write q choice
  | .timeout q => l.dropPeer q
  | .abandonQueue => l.abandonQueue
  | .closeConn s =>
    if s ∈ l.closeConns then
      let l := { l with closeConns := l.closeConns.erase s }
      match l.senders[s]? with
      | none => l
      | some sd => l.closeConn sd.conn
    else l
  | .closeSender s =>
    if s ∈ l.closeSenders then { l with closeSenders := l.closeSenders.erase s }.closeSender s else l
  | .shutdown => { l with closed := true }
  | .shutdownEnd => l.shutdownEnd

end PeerLink

end Iroh.Gossip
