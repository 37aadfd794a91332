import Iroh.GossipProto.Types

/-!
# The PlumTree state machine

Reference: `internal/gossipproto/plumtree.go`.

Handlers take the call in progress, `PlumtreeCall`, as those of HyParView do.  A `range` over a map
visits it in the order its entries were stored; the source promises none.  `time.Time` counts from
its zero value, which inputs without a time carry.

Message ids are hashes of contents: the hash function is a parameter.
-/

namespace Iroh.GossipProto

def normalizeMaxMessageSize (n : ℤ) : ℤ := if n ≤ 0 then 4096 else if n < 512 then 512 else n

/-- `types.go::plumtreePayloadHeaderSize`: two kinds, an id, an empty content, and a scope with its
round. -/
def plumtreePayloadHeaderSize : ℤ := 1 + 1 + 32 + 1 + 1 + 1

def maxPayloadSize (maxMessageSize : ℤ) : ℤ :=
  let n := normalizeMaxMessageSize maxMessageSize - plumtreePayloadHeaderSize
  if n < 0 then 0 else n

def defaultMaxPayloadSize : ℤ := maxPayloadSize 4096

/-! ## Inputs, outputs and state -/

inductive Scope where
  | swarm
  | neighbors
  | unknown (n : ℕ)
deriving DecidableEq

structure PlumtreeConfig where
  graftTimeout1 : Duration
  graftTimeout2 : Duration
  dispatchTimeout : Duration
  optimizationThreshold : UInt16
  messageCacheRetention : Duration
  messageIDRetention : Duration
  cacheEvictInterval : Duration
  maxPayloadSize : ℤ
deriving DecidableEq

def defaultPlumtreeConfig : PlumtreeConfig where
  graftTimeout1 := 80000000
  graftTimeout2 := 40000000
  dispatchTimeout := 5000000
  optimizationThreshold := 7
  messageCacheRetention := 30000000000
  messageIDRetention := 90000000000
  cacheEvictInterval := 1000000000
  maxPayloadSize := defaultMaxPayloadSize

inductive PlumtreeTimer where
  | sendGraft (id : MessageID)
  | dispatchLazyPush
  | evictCache
  | unknown (kind : ℕ)
deriving DecidableEq

/-- What a `plumtree.go::PlumtreeInEvent` asks for. -/
inductive PlumtreeInput where
  | recvMessage (sender : PeerID) (message : PlumtreeMessage)
  | broadcast (content : Bytes) (scope : Scope)
  | timerExpired (timer : PlumtreeTimer)
  | neighborUp (peer : PeerID)
  | neighborDown (peer : PeerID)
  | unknown (kind : ℕ)
deriving DecidableEq

structure PlumtreeInEvent where
  input : PlumtreeInput
  now : Time
deriving DecidableEq

/-- `plumtree.go::PlumtreeEvent`, a payload received. -/
structure PlumtreeEvent where
  content : Bytes
  deliveredFrom : PeerID
  scope : DeliveryScope
deriving DecidableEq

inductive PlumtreeOutEvent where
  | sendMessage (dest : PeerID) (message : PlumtreeMessage)
  | scheduleTimer (after : Duration) (timer : PlumtreeTimer)
  | emitEvent (event : PlumtreeEvent)
deriving DecidableEq

structure GraftTarget where
  peer : PeerID
  round : UInt16
deriving DecidableEq

structure CachedGossip where
  message : Gossip
  expire : Time
deriving DecidableEq

structure PlumtreeStats where
  payloadMessagesReceived : UInt64
  controlMessagesReceived : UInt64
  maxLastDeliveryHop : UInt16
deriving DecidableEq

structure PlumtreeState where
  me : PeerID
  config : PlumtreeConfig
  eager : GoSet PeerID
  lazy : GoSet PeerID
  lazyQueue : GoMap PeerID (List IHave)
  missing : GoMap MessageID (List GraftTarget)
  nmissing : GoMap PeerID ℤ
  ntargets : ℤ
  received : GoMap MessageID Time
  cache : GoMap MessageID CachedGossip
  graftTimerScheduled : GoSet MessageID
  dispatchTimerScheduled : Bool
  init : Bool
  stats : PlumtreeStats
  maxPayloadSize : ℤ

def maxMissingPerPeer : ℤ := 1024

def maxMissing : ℤ := 16 * maxMissingPerPeer

/-- The configuration `NewPlumtreeState` uses. -/
def PlumtreeConfig.withDefaults (config : PlumtreeConfig) : PlumtreeConfig :=
  let config := if config = ⟨0, 0, 0, 0, 0, 0, 0, 0⟩ then defaultPlumtreeConfig else config
  if config.maxPayloadSize ≤ 0 then { config with maxPayloadSize := defaultMaxPayloadSize }
  else config

def newPlumtreeState (me : PeerID) (config : PlumtreeConfig) : PlumtreeState where
  me := me
  config := config.withDefaults
  eager := .empty
  lazy := .empty
  lazyQueue := .empty
  missing := .empty
  nmissing := .empty
  ntargets := 0
  received := .empty
  cache := .empty
  graftTimerScheduled := .empty
  dispatchTimerScheduled := false
  init := false
  stats := ⟨0, 0, 0⟩
  maxPayloadSize := config.withDefaults.maxPayloadSize

structure PlumtreeCall extends PlumtreeState where
  out : List PlumtreeOutEvent

instance : Coe PlumtreeCall PlumtreeState := ⟨PlumtreeCall.toPlumtreeState⟩

namespace PlumtreeCall

def emit (c : PlumtreeCall) (ev : PlumtreeOutEvent) : PlumtreeCall := { c with out := c.out ++ [ev] }

/-! ## Building blocks -/

def addEager (c : PlumtreeCall) (peer : PeerID) : PlumtreeCall :=
  { c with lazy := c.lazy.delete peer, eager := c.eager.set peer () }

def addLazy (c : PlumtreeCall) (peer : PeerID) : PlumtreeCall :=
  { c with eager := c.eager.delete peer, lazy := c.lazy.set peer () }

def eagerPush (c : PlumtreeCall) (message : Gossip) (sender : PeerID) : PlumtreeCall :=
  c.eager.keys.foldl (fun c peer =>
    if peer = c.me ∨ peer = sender then c else c.emit (.sendMessage peer (.gossip message))) c

/-- `lazyPush`'s queue, with an `IHave` for every lazy peer but the sender. -/
def queueIHave (c : PlumtreeCall) (ihave : IHave) (sender : PeerID) : PlumtreeCall :=
  c.lazy.keys.foldl (fun c peer =>
    if peer = sender then c
    else { c with lazyQueue := c.lazyQueue.set peer ((c.lazyQueue.get? peer).getD [] ++ [ihave]) }) c

def lazyPush (c : PlumtreeCall) (message : Gossip) (sender : PeerID) : PlumtreeCall :=
  match message.scope with
  | .swarm round =>
    let c := c.queueIHave ⟨message.id, round⟩ sender
    if c.dispatchTimerScheduled then c
    else
      { c.emit (.scheduleTimer c.config.dispatchTimeout .dispatchLazyPush) with
        dispatchTimerScheduled := true }
  | _ => c

def forgetMissing (c : PlumtreeCall) (peer : PeerID) : PlumtreeCall :=
  let n := (c.nmissing.get? peer).getD 0
  { c with
    ntargets := c.ntargets - 1
    nmissing := if n ≤ 1 then c.nmissing.delete peer else c.nmissing.set peer (n - 1) }

def bestTarget (first : GraftTarget) (rest : List GraftTarget) : GraftTarget :=
  rest.foldl (fun best candidate => if candidate.round < best.round then candidate else best) first

/-- `optimizeTree`'s graft of a better parent. -/
def graftBest (c : PlumtreeCall) (best : GraftTarget) : PlumtreeCall :=
  if c.eager.contains best.peer then c
  else (c.addEager best.peer).emit (.sendMessage best.peer (.graft ⟨none, best.round⟩))

def optimizeTree (c : PlumtreeCall) (sender : PeerID) (message : Gossip) (ihaves : List GraftTarget) :
    PlumtreeCall :=
  match message.scope, ihaves with
  | .swarm round, first :: rest =>
    let best := bestTarget first rest
    if best.round < round ∧ round - best.round ≥ c.config.optimizationThreshold then
      ((c.graftBest best).addLazy sender).emit (.sendMessage sender .prune)
    else c
  | _, _ => c

/-! ## Handlers -/

/-- What `broadcast` records of a message for the swarm, before the pushes. -/
def remember (c : PlumtreeCall) (id : MessageID) (message : Gossip) (now : Time) : PlumtreeCall :=
  { c with
    received := c.received.set id (now + c.config.messageIDRetention)
    cache := c.cache.set id ⟨message, now + c.config.messageCacheRetention⟩ }

def broadcast (messageIDFromContent : Bytes → MessageID) (c : PlumtreeCall) (content : Bytes)
    (scope : Scope) (now : Time) : PlumtreeCall :=
  let id := messageIDFromContent content
  if scope = .neighbors then c.eagerPush ⟨id, content, .neighbors⟩ c.me
  else
    let message : Gossip := ⟨id, content, .swarm 0⟩
    let c := (c.remember id message now).lazyPush message c.me
    c.eagerPush message c.me

/-- The part of `onGossip` for a new message of the swarm. -/
def onSwarmGossip (c : PlumtreeCall) (sender : PeerID) (message : Gossip) (round : UInt16)
    (now : Time) : PlumtreeCall :=
  let forward := { message with scope := .swarm (round + 1) }
  let c := (c.remember message.id forward now).eagerPush forward sender
  let c := c.lazyPush forward sender
  let previous := (c.missing.get? message.id).getD []
  let c := { c with
    graftTimerScheduled := c.graftTimerScheduled.delete message.id
    missing := c.missing.delete message.id }
  let c := previous.foldl (fun c target => c.forgetMissing target.peer) c
  let c := c.optimizeTree sender forward previous
  if round > c.stats.maxLastDeliveryHop then
    { c with stats := { c.stats with maxLastDeliveryHop := round } }
  else c

def onGossip (messageIDFromContent : Bytes → MessageID) (c : PlumtreeCall) (sender : PeerID)
    (message : Gossip) (now : Time) : PlumtreeCall :=
  if message.id ≠ messageIDFromContent message.content then c
  else if c.received.contains message.id then
    (c.addLazy sender).emit (.sendMessage sender .prune)
  else
    let c :=
      match message.scope with
      | .swarm round => c.onSwarmGossip sender message round now
      | _ => c
    c.emit (.emitEvent ⟨message.content, sender, message.scope⟩)

/-- One announcement of `onIHave`. -/
def onIHaveOne (sender : PeerID) (c : PlumtreeCall) (ihave : IHave) : PlumtreeCall :=
  let targets := (c.missing.get? ihave.id).getD []
  if c.received.contains ihave.id then c
  else if (c.nmissing.get? sender).getD 0 ≥ maxMissingPerPeer ∨ c.ntargets ≥ maxMissing ∨
      c.graftTimerScheduled.len ≥ maxMissing ∨ sender ∈ targets.map GraftTarget.peer then c
  else
    let c := { c with
      missing := c.missing.set ihave.id (targets ++ [⟨sender, ihave.round⟩])
      nmissing := c.nmissing.set sender ((c.nmissing.get? sender).getD 0 + 1)
      ntargets := c.ntargets + 1 }
    if c.graftTimerScheduled.contains ihave.id then c
    else
      { c with graftTimerScheduled := c.graftTimerScheduled.set ihave.id () }.emit
        (.scheduleTimer c.config.graftTimeout1 (.sendGraft ihave.id))

def onIHave (c : PlumtreeCall) (sender : PeerID) (ihaves : List IHave) : PlumtreeCall :=
  ihaves.foldl (onIHaveOne sender) c

def onSendGraftTimer (c : PlumtreeCall) (id : MessageID) : PlumtreeCall :=
  let c := { c with graftTimerScheduled := c.graftTimerScheduled.delete id }
  if c.received.contains id then c
  else
    match (c.missing.get? id).getD [] with
    | [] => c
    | target :: rest =>
      let c := { c with
        missing := if rest.isEmpty then c.missing.delete id else c.missing.set id rest }
      let c := (c.forgetMissing target.peer).addEager target.peer
      (c.emit (.sendMessage target.peer (.graft ⟨some id, target.round⟩))).emit
        (.scheduleTimer c.config.graftTimeout2 (.sendGraft id))

def onGraft (c : PlumtreeCall) (sender : PeerID) (graft : Graft) : PlumtreeCall :=
  let c := c.addEager sender
  match graft.id.bind c.cache.get? with
  | some cached => c.emit (.sendMessage sender (.gossip cached.message))
  | none => c

/-- The loop that cuts a queue into messages of `n` announcements; `fuel` bounds their number. -/
def chunks (n : ℕ) : ℕ → List IHave → List (List IHave)
  | 0, _ => []
  | fuel + 1, ihaves =>
    if ihaves.isEmpty then [] else ihaves.take n :: chunks n fuel (ihaves.drop n)

/-- `onDispatchTimer`.  A queue has at most as many messages as announcements, since each takes one
or more. -/
def onDispatchTimer (c : PlumtreeCall) : PlumtreeCall :=
  let chunkLen := (max 1 ((c.maxPayloadSize - 3).tdiv 35)).toNat
  let c := c.lazyQueue.toList.foldl (fun c queue =>
    let sent := (chunks chunkLen queue.2.length queue.2).foldl
      (fun c ihaves => c.emit (.sendMessage queue.1 (.iHave ihaves))) c
    { sent with lazyQueue := sent.lazyQueue.delete queue.1 }) c
  { c with dispatchTimerScheduled := false }

/-- `onNeighborDown`'s loop over the missing messages. -/
def dropTargets (missing : GoMap MessageID (List GraftTarget)) (peer : PeerID) :
    GoMap MessageID (List GraftTarget) :=
  missing.toList.foldl (fun m entry =>
    let targets := entry.2.filter (·.peer ≠ peer)
    if targets.isEmpty then m.delete entry.1 else m.set entry.1 targets) missing

def onNeighborDown (c : PlumtreeCall) (peer : PeerID) : PlumtreeCall :=
  { c with
    missing := dropTargets c.missing peer
    ntargets := c.ntargets - (c.nmissing.get? peer).getD 0
    nmissing := c.nmissing.delete peer
    eager := c.eager.delete peer
    lazy := c.lazy.delete peer }

def onEvictCacheTimer (c : PlumtreeCall) (now : Time) : PlumtreeCall :=
  { c with
    received := c.received.rangeDelete fun _ expire => expire ≤ now
    cache := c.cache.rangeDelete fun _ cached => cached.expire ≤ now }.emit
      (.scheduleTimer c.config.cacheEvictInterval .evictCache)

/-- The switch of `handleMessage`. -/
def onMessage (messageIDFromContent : Bytes → MessageID) (c : PlumtreeCall) (sender : PeerID)
    (now : Time) : PlumtreeMessage → PlumtreeCall
  | .gossip message => c.onGossip messageIDFromContent sender message now
  | .prune => c.addLazy sender
  | .iHave ihaves => c.onIHave sender ihaves
  | .graft message => c.onGraft sender message
  | .unknown _ => c

def countMessage (c : PlumtreeCall) : PlumtreeMessage → PlumtreeCall
  | .gossip _ => { c with stats :=
      { c.stats with payloadMessagesReceived := c.stats.payloadMessagesReceived + 1 } }
  | _ => { c with stats :=
      { c.stats with controlMessagesReceived := c.stats.controlMessagesReceived + 1 } }

def handleMessage (messageIDFromContent : Bytes → MessageID) (c : PlumtreeCall) (sender : PeerID)
    (message : PlumtreeMessage) (now : Time) : PlumtreeCall :=
  (c.countMessage message).onMessage messageIDFromContent sender now message

/-- The switch of `Handle`. -/
def handleInput (messageIDFromContent : Bytes → MessageID) (c : PlumtreeCall) (now : Time) :
    PlumtreeInput → PlumtreeCall
  | .recvMessage sender message => c.handleMessage messageIDFromContent sender message now
  | .broadcast content scope => c.broadcast messageIDFromContent content scope now
  | .timerExpired .dispatchLazyPush => c.onDispatchTimer
  | .timerExpired (.sendGraft id) => c.onSendGraftTimer id
  | .timerExpired .evictCache => c.onEvictCacheTimer now
  | .timerExpired (.unknown _) => c
  | .neighborUp peer => c.addEager peer
  | .neighborDown peer => c.onNeighborDown peer
  | .unknown _ => c

/-- `Handle`'s first eviction, which sets the timer for the next. -/
def start (c : PlumtreeCall) (now : Time) : PlumtreeCall :=
  if c.init then c else { c with init := true }.onEvictCacheTimer now

end PlumtreeCall

def PlumtreeState.handle (messageIDFromContent : Bytes → MessageID) (s : PlumtreeState)
    (ev : PlumtreeInEvent) : PlumtreeState × List PlumtreeOutEvent :=
  let c := ((PlumtreeCall.mk s []).start ev.now).handleInput messageIDFromContent ev.now ev.input
  (c.toPlumtreeState, c.out)

end Iroh.GossipProto
