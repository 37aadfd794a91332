import Iroh.GossipProto.Hyparview
import Iroh.GossipProto.Plumtree

/-!
# One topic

Reference: `internal/gossipproto/topic.go`.

A topic runs HyParView for membership and PlumTree for broadcast.  The neighbor events of the first
are inputs of the second, replayed once HyParView's call has returned.
-/

namespace Iroh.GossipProto

/-! ## Inputs, outputs and state -/

structure TopicConfig where
  membership : HyparviewConfig
  broadcast : PlumtreeConfig
deriving DecidableEq

def defaultTopicConfig : TopicConfig := ⟨defaultHyparviewConfig, defaultPlumtreeConfig⟩

inductive TopicCommand where
  | join (peers : List PeerID)
  | broadcast (content : Bytes) (scope : Scope)
  | quit
  | unknown (kind : ℕ)
deriving DecidableEq

inductive TopicTimer where
  | hyparview (timer : HyparviewTimer)
  | plumtree (timer : PlumtreeTimer)
  | unknown (kind : ℕ)
deriving DecidableEq

/-- What a `topic.go::TopicInEvent` asks for. -/
inductive TopicInput where
  | recvMessage (sender : PeerID) (message : TopicMessage)
  | command (command : TopicCommand)
  | timerExpired (timer : TopicTimer)
  | peerDisconnected (peer : PeerID)
  | updatePeerData (data : PeerData)
  | unknown (kind : ℕ)
deriving DecidableEq

structure TopicInEvent where
  input : TopicInput
  now : Time
deriving DecidableEq

inductive TopicEvent where
  | neighborUp (peer : PeerID)
  | neighborDown (peer : PeerID)
  | received (content : Bytes) (deliveredFrom : PeerID) (scope : DeliveryScope)
deriving DecidableEq

inductive TopicOutEvent where
  | sendMessage (dest : PeerID) (message : TopicMessage)
  | emitEvent (event : TopicEvent)
  | scheduleTimer (after : Duration) (timer : TopicTimer)
  | disconnectPeer (dest : PeerID)
  | peerData (dest : PeerID) (data : PeerData)
deriving DecidableEq

structure TopicState where
  me : PeerID
  swarm : HyparviewState
  gossip : PlumtreeState
  messagesSent : ℕ
  messagesReceived : ℕ

def newTopicState (me : PeerID) (data : Option PeerData) (config : TopicConfig) (rand : Rand) :
    TopicState :=
  let config :=
    if config = ⟨⟨0, 0, 0, 0, 0, 0, 0, 0, 0⟩, ⟨0, 0, 0, 0, 0, 0, 0, 0⟩⟩ then defaultTopicConfig
    else config
  { me := me
    swarm := newHyparviewState me data config.membership rand
    gossip := newPlumtreeState me config.broadcast
    messagesSent := 0
    messagesReceived := 0 }

/-! ## The two layers -/

def PlumtreeOutEvent.toTopic : PlumtreeOutEvent → TopicOutEvent
  | .sendMessage dest message => .sendMessage dest (.gossip message)
  | .scheduleTimer after timer => .scheduleTimer after (.plumtree timer)
  | .emitEvent event => .emitEvent (.received event.content event.deliveredFrom event.scope)

def fromPlumtree (events : List PlumtreeOutEvent) : List TopicOutEvent :=
  events.map PlumtreeOutEvent.toTopic

structure TopicCall extends TopicState where
  out : List TopicOutEvent

namespace TopicCall

def emit (c : TopicCall) (ev : TopicOutEvent) : TopicCall := { c with out := c.out ++ [ev] }

section Hash

variable (messageIDFromContent : Bytes → MessageID)

/-- `out = append(out, s.fromPlumtree(s.gossip.Handle(ev))...)`. -/
def toGossip (c : TopicCall) (ev : PlumtreeInEvent) : TopicCall :=
  let q := c.gossip.handle messageIDFromContent ev
  { c with gossip := q.1, out := c.out ++ fromPlumtree q.2 }

/-- One output of HyParView in `fromHyparview`. -/
def fromHyparviewOne (c : TopicCall) : HyparviewOutEvent → TopicCall
  | .sendMessage dest message => c.emit (.sendMessage dest (.swarm message))
  | .scheduleTimer after timer => c.emit (.scheduleTimer after (.hyparview timer))
  | .disconnectPeer dest => c.emit (.disconnectPeer dest)
  | .emitEvent (.neighborUp peer) =>
    (c.emit (.emitEvent (.neighborUp peer))).toGossip messageIDFromContent ⟨.neighborUp peer, 0⟩
  | .emitEvent (.neighborDown peer) =>
    (c.emit (.emitEvent (.neighborDown peer))).toGossip messageIDFromContent ⟨.neighborDown peer, 0⟩
  | .peerData dest data => c.emit (.peerData dest data)

def fromHyparview (c : TopicCall) (events : List HyparviewOutEvent) : TopicCall :=
  events.foldl (fromHyparviewOne messageIDFromContent) c

/-- `out = append(out, s.fromHyparview(s.swarm.Handle(ev))...)`. -/
def toSwarm (c : TopicCall) (ev : HyparviewInEvent) : TopicCall :=
  let q := c.swarm.handle ev
  { c with swarm := q.1 }.fromHyparview messageIDFromContent q.2

/-! ## Handling -/

/-- The commands of `Handle`. -/
def handleCommand (c : TopicCall) (now : Time) : TopicCommand → TopicCall
  | .join peers => peers.foldl (fun c peer => c.toSwarm messageIDFromContent (.requestJoin peer)) c
  | .broadcast content scope => c.toGossip messageIDFromContent ⟨.broadcast content scope, now⟩
  | .quit => c.toSwarm messageIDFromContent .quit
  | .unknown _ => c

/-- The messages of `Handle`. -/
def handleMessage (c : TopicCall) (sender : PeerID) (now : Time) : TopicMessage → TopicCall
  | .swarm message => c.toSwarm messageIDFromContent (.recvMessage sender message)
  | .gossip message => c.toGossip messageIDFromContent ⟨.recvMessage sender message, now⟩
  | .unknown _ => c

/-- The timers of `Handle`. -/
def handleTimer (c : TopicCall) (now : Time) : TopicTimer → TopicCall
  | .hyparview timer => c.toSwarm messageIDFromContent (.timerExpired timer)
  | .plumtree timer => c.toGossip messageIDFromContent ⟨.timerExpired timer, now⟩
  | .unknown _ => c

/-- The switch of `Handle`. -/
def handleInput (c : TopicCall) (now : Time) : TopicInput → TopicCall
  | .command command => c.handleCommand messageIDFromContent now command
  | .recvMessage sender message =>
    { c with messagesReceived := c.messagesReceived + 1 }.handleMessage messageIDFromContent
      sender now message
  | .timerExpired timer => c.handleTimer messageIDFromContent now timer
  | .peerDisconnected peer =>
    (c.toSwarm messageIDFromContent (.peerDisconnected peer)).toGossip messageIDFromContent
      ⟨.neighborDown peer, now⟩
  | .updatePeerData data => c.toSwarm messageIDFromContent (.updatePeerData (some data))
  | .unknown _ => c

end Hash

def isSend : TopicOutEvent → Bool
  | .sendMessage _ _ => true
  | _ => false

/-- `Handle`'s count of the messages sent. -/
def countSent (c : TopicCall) : TopicCall :=
  { c with messagesSent := c.messagesSent + c.out.countP isSend }

end TopicCall

def TopicState.handle (messageIDFromContent : Bytes → MessageID) (s : TopicState)
    (ev : TopicInEvent) : TopicState × List TopicOutEvent :=
  let c := ((TopicCall.mk s []).handleInput messageIDFromContent ev.now ev.input).countSent
  (c.toTopicState, c.out)

end Iroh.GossipProto
