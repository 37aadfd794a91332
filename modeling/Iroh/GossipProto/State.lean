import Iroh.GossipProto.Topic
import Mathlib.Algebra.Ring.Nat

/-!
# All topics of a node

Reference: `internal/gossipproto/state.go`.

A node runs one state machine per joined topic over shared connections.  `peerTopics` remembers the
topics on which a peer has sent something and has not been disconnected since; the connection to a
peer is given up when the last of them is dropped.

The stream of random numbers that a seed gives is a parameter, `newSource`.
-/

namespace Iroh.GossipProto

/-! ## Inputs, outputs and state -/

structure Config where
  topic : TopicConfig
  maxMessageSize : ℤ
deriving DecidableEq

def defaultConfig : Config := ⟨defaultTopicConfig, 4096⟩

structure Message where
  topic : TopicID
  message : TopicMessage
deriving DecidableEq

structure Timer where
  topic : TopicID
  timer : TopicTimer
deriving DecidableEq

/-- What a `state.go::InEvent` asks for. -/
inductive Input where
  | recvMessage (sender : PeerID) (message : Message)
  | command (topic : TopicID) (command : TopicCommand)
  | timerExpired (timer : Timer)
  | peerDisconnected (peer : PeerID)
  | updatePeerData (data : PeerData)
  | unknown (kind : ℕ)
deriving DecidableEq

structure InEvent where
  input : Input
  now : Time
deriving DecidableEq

/-- `state.go::OutEvent`, without the generation, which the adapter sets. -/
inductive OutEvent where
  | sendMessage (dest : PeerID) (message : Message)
  | emitEvent (topic : TopicID) (event : TopicEvent)
  | scheduleTimer (topic : TopicID) (after : Duration) (timer : Timer)
  | disconnectPeer (dest : PeerID)
  | peerData (topic : TopicID) (dest : PeerID) (data : PeerData)
deriving DecidableEq

structure State where
  me : PeerID
  meData : PeerData
  config : Config
  rand : Rand
  topics : GoMap TopicID TopicState
  peerTopics : GoMap PeerID (GoSet TopicID)

def newState (me : PeerID) (data : PeerData) (config : Config) (rand : Rand) : State :=
  let config :=
    if config = ⟨⟨⟨0, 0, 0, 0, 0, 0, 0, 0, 0⟩, ⟨0, 0, 0, 0, 0, 0, 0, 0⟩⟩, 0⟩ then defaultConfig
    else config
  let size := normalizeMaxMessageSize config.maxMessageSize
  let broadcast := { config.topic.broadcast with maxPayloadSize := maxPayloadSize size }
  { me := me
    meData := data
    config := ⟨{ config.topic with broadcast := broadcast }, size⟩
    rand := rand
    topics := .empty
    peerTopics := .empty }

namespace State

/-- `Topics`. -/
def topicIDs (s : State) : List TopicID :=
  s.topics.keys.mergeSort fun a b => (bytesCompare a.toList b.toList).isLE

/-- `s.peerTopics[peer]`, a nil map being empty. -/
def topicsOf (s : State) (peer : PeerID) : GoSet TopicID := (s.peerTopics.get? peer).getD .empty

end State

def Rand.int63 (r : Rand) : ℕ × Rand := (r.draw r.pos % 2 ^ 63, ⟨r.draw, r.pos + 1⟩)

/-! ## Topics and connections -/

structure StateCall extends State where
  out : List OutEvent

namespace StateCall

def emit (c : StateCall) (ev : OutEvent) : StateCall := { c with out := c.out ++ [ev] }

/-- `handleTopicEvent`'s record of the sender of a received message. -/
def record (c : StateCall) (sender : PeerID) (topic : TopicID) : StateCall :=
  { c with peerTopics := c.peerTopics.set sender ((c.topicsOf sender).set topic ()) }

def dropPeerTopic (c : StateCall) (peer : PeerID) (topic : TopicID) : Bool × StateCall :=
  let topics := c.topicsOf peer
  if topics.len = 0 then (false, c)
  else
    let topics := topics.delete topic
    if topics.len ≠ 0 then (false, { c with peerTopics := c.peerTopics.set peer topics })
    else (true, { c with peerTopics := c.peerTopics.delete peer })

def handleTopicOut (topic : TopicID) (c : StateCall) : TopicOutEvent → StateCall
  | .sendMessage dest message => c.emit (.sendMessage dest ⟨topic, message⟩)
  | .emitEvent event => c.emit (.emitEvent topic event)
  | .scheduleTimer after timer => c.emit (.scheduleTimer topic after ⟨topic, timer⟩)
  | .disconnectPeer dest =>
    let q := c.dropPeerTopic dest topic
    if q.1 then q.2.emit (.disconnectPeer dest) else q.2
  | .peerData dest data => c.emit (.peerData topic dest data)

section Hash

variable (messageIDFromContent : Bytes → MessageID)

/-- `st.Handle(ev)` for a joined topic, and the loop over its outputs. -/
def deliver (c : StateCall) (topic : TopicID) (ev : TopicInEvent) : StateCall :=
  match c.topics.get? topic with
  | none => c
  | some st =>
    let q := st.handle messageIDFromContent ev
    q.2.foldl (handleTopicOut topic) { c with topics := c.topics.set topic q.1 }

/-- `handleTopicEvent`.  The sender is given when the event is a received message. -/
def handleTopicEvent (c : StateCall) (topic : TopicID) (ev : TopicInEvent)
    (received : Option PeerID) : StateCall :=
  if !c.topics.contains topic then c
  else
    let c :=
      match received with
      | some sender => c.record sender topic
      | none => c
    c.deliver messageIDFromContent topic ev

/-- The loops of `Handle` over all topics. -/
def deliverAll (c : StateCall) (ev : TopicInEvent) : StateCall :=
  c.topicIDs.foldl (fun c topic => c.deliver messageIDFromContent topic ev) c

/-! ## Handling -/

variable (newSource : ℕ → Rand)

def joinTopic (c : StateCall) (topic : TopicID) : StateCall :=
  if c.topics.contains topic then c
  else
    let q := c.rand.int63
    let st := newTopicState c.me (some c.meData) c.config.topic (newSource q.1)
    { c with rand := q.2, topics := c.topics.set topic st }

def handleCommand (c : StateCall) (topic : TopicID) (command : TopicCommand) (now : Time) :
    StateCall :=
  let c :=
    match command with
    | .join _ => c.joinTopic newSource topic
    | _ => c
  let c := c.handleTopicEvent messageIDFromContent topic ⟨.command command, now⟩ none
  if command = .quit then { c with topics := c.topics.delete topic } else c

/-- The switch of `Handle`. -/
def handleInput (c : StateCall) (now : Time) : Input → StateCall
  | .recvMessage sender message =>
    c.handleTopicEvent messageIDFromContent message.topic
      ⟨.recvMessage sender message.message, now⟩ (some sender)
  | .command topic command => c.handleCommand messageIDFromContent newSource topic command now
  | .timerExpired timer =>
    c.handleTopicEvent messageIDFromContent timer.topic ⟨.timerExpired timer.timer, now⟩ none
  | .peerDisconnected peer =>
    let c := c.deliverAll messageIDFromContent ⟨.peerDisconnected peer, now⟩
    { c with peerTopics := c.peerTopics.delete peer }
  | .updatePeerData data =>
    { c with meData := data }.deliverAll messageIDFromContent ⟨.updatePeerData data, now⟩
  | .unknown _ => c

end Hash

end StateCall

def State.handle (messageIDFromContent : Bytes → MessageID) (newSource : ℕ → Rand) (s : State)
    (ev : InEvent) : State × List OutEvent :=
  let c := (StateCall.mk s []).handleInput messageIDFromContent newSource ev.now ev.input
  (c.toState, c.out)

def State.run (messageIDFromContent : Bytes → MessageID) (newSource : ℕ → Rand) (s : State)
    (evs : List InEvent) : State :=
  evs.foldl (fun s ev => (s.handle messageIDFromContent newSource ev).1) s

end Iroh.GossipProto
