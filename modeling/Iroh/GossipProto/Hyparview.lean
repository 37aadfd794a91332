import Iroh.GossipProto.Types

/-!
# The HyParView state machine

Reference: `internal/gossipproto/hyparview.go`.

Handlers take the call in progress, `HyparviewCall`: the state, and the outputs appended so far.
Random choices come from a stream of numbers, each reduced to the range asked for, so that every
outcome of every choice is some stream's.
-/

namespace Iroh.GossipProto

structure Rand where
  draw : ℕ → ℕ
  pos : ℕ

def Rand.intn (r : Rand) (n : ℕ) : ℕ × Rand := (r.draw r.pos % n, ⟨r.draw, r.pos + 1⟩)

def swap (l : List PeerID) (i j : ℕ) : List PeerID :=
  match l[i]?, l[j]? with
  | some a, some b => (l.set i b).set j a
  | _, _ => l

/-- The loop of `rand.Rand.Shuffle` from index `i` down. -/
def shuffleLoop : ℕ → List PeerID → Rand → List PeerID × Rand
  | 0, l, r => (l, r)
  | i + 1, l, r =>
    let q := r.intn (i + 2)
    shuffleLoop i (swap l (i + 1) q.1) q.2

namespace PeerList

def insert (l : List PeerID) (peer : PeerID) : List PeerID := if peer ∈ l then l else l ++ [peer]

def without (l : List PeerID) (skip : List PeerID) : List PeerID := l.filter (· ∉ skip)

def random (l : List PeerID) (r : Rand) : Option PeerID × Rand :=
  if l.isEmpty then (none, r)
  else
    let q := r.intn l.length
    (l[q.1]?, q.2)

def randomWithout (l : List PeerID) (r : Rand) (skip : List PeerID) : Option PeerID × Rand :=
  random (without l skip) r

/-- `peerList.shuffledWithoutN`.  The source's slice expression panics for a negative `n`, where this
gives the empty list. -/
def shuffledWithoutN (l : List PeerID) (r : Rand) (n : ℤ) (skip : List PeerID) :
    List PeerID × Rand :=
  let peers := without l skip
  let q := shuffleLoop (peers.length - 1) peers r
  (q.1.take n.toNat, q.2)

def shuffledN (l : List PeerID) (r : Rand) (n : ℤ) : List PeerID × Rand :=
  if n ≤ 0 then ([], r) else shuffledWithoutN l r n []

end PeerList

/-! ## Inputs, outputs and state -/

/-- `hyparview.go::HyparviewConfig`.  Capacities and counts are `int`s, which may be
negative. -/
structure HyparviewConfig where
  activeViewCapacity : ℤ
  passiveViewCapacity : ℤ
  activeRandomWalkLength : UInt16
  passiveRandomWalkLength : UInt16
  shuffleRandomWalkLength : UInt16
  shuffleActiveViewCount : ℤ
  shufflePassiveViewCount : ℤ
  shuffleInterval : Duration
  neighborRequestTimeout : Duration
deriving DecidableEq

def defaultHyparviewConfig : HyparviewConfig where
  activeViewCapacity := 5
  passiveViewCapacity := 30
  activeRandomWalkLength := 6
  passiveRandomWalkLength := 3
  shuffleRandomWalkLength := 6
  shuffleActiveViewCount := 3
  shufflePassiveViewCount := 4
  shuffleInterval := 60000000000
  neighborRequestTimeout := 500000000

inductive HyparviewTimer where
  | doShuffle
  | pendingNeighborRequest (peer : PeerID)
  | unknown (kind : ℕ)
deriving DecidableEq

inductive HyparviewInEvent where
  | recvMessage (sender : PeerID) (message : HyparviewMessage)
  | timerExpired (timer : HyparviewTimer)
  | peerDisconnected (peer : PeerID)
  | requestJoin (peer : PeerID)
  | updatePeerData (data : Option PeerData)
  | quit
  | unknown (kind : ℕ)
deriving DecidableEq

inductive HyparviewEvent where
  | neighborUp (peer : PeerID)
  | neighborDown (peer : PeerID)
deriving DecidableEq

inductive HyparviewOutEvent where
  | sendMessage (dest : PeerID) (message : HyparviewMessage)
  | scheduleTimer (after : Duration) (timer : HyparviewTimer)
  | disconnectPeer (dest : PeerID)
  | emitEvent (event : HyparviewEvent)
  | peerData (dest : PeerID) (data : PeerData)
deriving DecidableEq

structure HyparviewState where
  me : PeerID
  meData : Option PeerData
  config : HyparviewConfig
  rand : Rand
  active : List PeerID
  passive : List PeerID
  shuffleScheduled : Bool
  totalConnections : ℕ
  pendingNeighbor : GoSet PeerID
  peerData : GoMap PeerID PeerData
  aliveDisconnect : GoSet PeerID

def newHyparviewState (me : PeerID) (data : Option PeerData) (config : HyparviewConfig)
    (rand : Rand) : HyparviewState where
  me := me
  meData := data
  config := if config = ⟨0, 0, 0, 0, 0, 0, 0, 0, 0⟩ then defaultHyparviewConfig else config
  rand := rand
  active := []
  passive := []
  shuffleScheduled := false
  totalConnections := 0
  pendingNeighbor := .empty
  peerData := .empty
  aliveDisconnect := .empty

/-- A call of `Handle` in progress: the state and the outputs so far. -/
structure HyparviewCall extends HyparviewState where
  out : List HyparviewOutEvent

namespace HyparviewCall

def emit (c : HyparviewCall) (ev : HyparviewOutEvent) : HyparviewCall :=
  { c with out := c.out ++ [ev] }

def clearPending (c : HyparviewCall) (peer : PeerID) : HyparviewCall :=
  { c with pendingNeighbor := c.pendingNeighbor.delete peer }

/-! ## Building blocks -/

def insertPeerInfo (c : HyparviewCall) (info : PeerInfo) : HyparviewCall :=
  match info.data with
  | none => c
  | some data =>
    let c :=
      if c.peerData.get? info.id ≠ some data ∧ data ≠ [] then c.emit (.peerData info.id data)
      else c
    { c with peerData := c.peerData.set info.id data }

def peerInfo (c : HyparviewCall) (id : PeerID) : PeerInfo := ⟨id, c.peerData.get? id⟩

def sendNeighbor (c : HyparviewCall) (peer : PeerID) (priority : Priority) : HyparviewCall :=
  if c.pendingNeighbor.contains peer then c
  else
    { c with pendingNeighbor := c.pendingNeighbor.set peer () }.emit
      (.sendMessage peer (.neighbor ⟨priority, c.meData⟩))

def sendShuffleReply (c : HyparviewCall) (dest : PeerID) (n : ℤ) : HyparviewCall :=
  let passive := PeerList.shuffledN c.passive c.rand n
  let active := PeerList.shuffledN c.active passive.2 (n - passive.1.length)
  { c with rand := active.2 }.emit
    (.sendMessage dest (.shuffleReply ((passive.1 ++ active.1).map c.peerInfo)))

def sendDisconnect (c : HyparviewCall) (peer : PeerID) (alive : Bool) : HyparviewCall :=
  let c := c.sendShuffleReply peer
    (c.config.shuffleActiveViewCount + c.config.shufflePassiveViewCount)
  (c.emit (.sendMessage peer (.disconnect ⟨alive, false⟩))).emit (.disconnectPeer peer)

/-- `addPassive`'s eviction of a random peer when the view is full. -/
def evictPassive (c : HyparviewCall) : HyparviewCall :=
  if c.passive.length ≥ c.config.passiveViewCapacity then
    let q := PeerList.random c.passive c.rand
    let c := { c with rand := q.2 }
    match q.1 with
    | some old => { c with passive := c.passive.erase old }
    | none => c
  else c

def addPassive (c : HyparviewCall) (peer : PeerID) (data : Option PeerData) : HyparviewCall :=
  let c := c.insertPeerInfo ⟨peer, data⟩
  if peer = c.me ∨ peer ∈ c.active ∨ peer ∈ c.passive then c
  else
    let c := c.evictPassive
    { c with passive := PeerList.insert c.passive peer }

def refillActiveFromPassive (c : HyparviewCall) (skip : List PeerID) : HyparviewCall :=
  if c.active.length + c.pendingNeighbor.len ≥ c.config.activeViewCapacity then c
  else
    let q := PeerList.randomWithout c.passive c.rand (skip ++ c.pendingNeighbor.keys)
    let c := { c with rand := q.2 }
    match q.1 with
    | none => c
    | some peer =>
      let c := c.sendNeighbor peer (if c.active.length = 0 then .high else .low)
      c.emit (.scheduleTimer c.config.neighborRequestTimeout (.pendingNeighborRequest peer))

inductive RemovalReason where
  | connectionClosed
  | disconnectReceived
  | random
deriving DecidableEq

/-- What `removeActive` does with a peer that goes to the passive view: its data is taken out and put
back. -/
def keepInPassive (c : HyparviewCall) (peer : PeerID) (reason : RemovalReason) : HyparviewCall :=
  let data := c.peerData.get? peer
  let c := { c with peerData := c.peerData.delete peer }
  let c := c.addPassive peer data
  if reason = .connectionClosed then c
  else { c with aliveDisconnect := c.aliveDisconnect.set peer () }

/-- What follows in `removeActive` once the peer has left the active view. -/
def afterRemoval (c : HyparviewCall) (peer : PeerID) (reason : RemovalReason) (alive refill : Bool) :
    HyparviewCall :=
  let c :=
    match reason with
    | .random => c.sendDisconnect peer true
    | _ => c.emit (.disconnectPeer peer)
  let keepPassive :=
    match reason with
    | .connectionClosed => c.aliveDisconnect.contains peer
    | .disconnectReceived => alive
    | .random => true
  let c :=
    match reason with
    | .connectionClosed => { c with aliveDisconnect := c.aliveDisconnect.delete peer }
    | _ => c
  let c := if keepPassive then c.keepInPassive peer reason else c
  if refill then c.refillActiveFromPassive [peer] else c

def removeActive (c : HyparviewCall) (peer : PeerID) (reason : RemovalReason)
    (alive refill : Bool) : HyparviewCall :=
  if peer ∉ c.active then c
  else
    let c := { c with active := c.active.erase peer }
    let c := (c.clearPending peer).emit (.emitEvent (.neighborDown peer))
    c.afterRemoval peer reason alive refill

/-- `addActive`'s eviction of a random peer when the view is full. -/
def evictActive (c : HyparviewCall) : HyparviewCall :=
  if c.active.length ≥ c.config.activeViewCapacity then
    let q := PeerList.random c.active c.rand
    let c := { c with rand := q.2 }
    match q.1 with
    | some old => c.removeActive old .random false false
    | none => c
  else c

/-- `addActive`'s entry of a peer that is not in the active view. -/
def enterActive (c : HyparviewCall) (peer : PeerID) (priority : Priority) (reply : Bool) :
    HyparviewCall :=
  let c := { c with passive := c.passive.erase peer }
  if peer ∈ c.active then c
  else
    let c := { c with active := c.active ++ [peer] }.emit (.emitEvent (.neighborUp peer))
    if reply then c.sendNeighbor peer priority else c

def addActive (c : HyparviewCall) (peer : PeerID) (data : Option PeerData) (priority : Priority)
    (reply : Bool) : Bool × HyparviewCall :=
  if peer = c.me then (false, c)
  else
    let c := c.insertPeerInfo ⟨peer, data⟩
    if peer ∈ c.active then (true, if reply then c.sendNeighbor peer priority else c)
    else if priority = .low ∧ c.active.length ≥ c.config.activeViewCapacity then (false, c)
    else (true, c.evictActive.enterActive peer priority reply)

/-! ## Handlers -/

/-- How `onForwardJoin` and `onShuffle` pass a random walk on: to an active peer outside `skip`, if
there is one. -/
def forwardWalk (c : HyparviewCall) (skip : List PeerID) (message : HyparviewMessage) :
    HyparviewCall :=
  let q := PeerList.randomWithout c.active c.rand skip
  let c := { c with rand := q.2 }
  match q.1 with
  | some next => c.emit (.sendMessage next message)
  | none => c

def handleJoin (c : HyparviewCall) (peer : PeerID) : HyparviewCall :=
  c.emit (.sendMessage peer (.join c.meData))

def onJoin (c : HyparviewCall) (peer : PeerID) (data : Option PeerData) : HyparviewCall :=
  let c := ((c.clearPending peer).addActive peer data .high true).2
  (PeerList.without c.active [peer]).foldl (fun c node => c.emit (.sendMessage node
    (.forwardJoin ⟨⟨peer, data⟩, c.config.activeRandomWalkLength⟩))) c

def onForwardJoin (c : HyparviewCall) (sender : PeerID) (message : ForwardJoin) : HyparviewCall :=
  let peer := message.peer.id
  let c := c.clearPending peer
  if peer ∈ c.active then (c.insertPeerInfo message.peer).sendNeighbor peer .high
  else if message.ttl = 0 ∨ c.active.length ≤ 1 then
    (c.insertPeerInfo message.peer).sendNeighbor peer .high
  else
    let c :=
      if message.ttl = c.config.passiveRandomWalkLength then c.addPassive peer message.peer.data
      else c
    c.forwardWalk [sender] (.forwardJoin { message with ttl := message.ttl - 1 })

def onNeighbor (c : HyparviewCall) (sender : PeerID) (details : Neighbor) : HyparviewCall :=
  let isReply := c.pendingNeighbor.contains sender
  let q := (c.clearPending sender).addActive sender details.data details.priority (!isReply)
  if q.1 then q.2 else q.2.sendDisconnect sender true

def onDisconnect (c : HyparviewCall) (peer : PeerID) (details : Disconnect) : HyparviewCall :=
  let c := c.clearPending peer
  if peer ∈ c.active then c.removeActive peer .disconnectReceived details.alive true
  else if details.alive ∧ peer ∈ c.passive then
    { c with aliveDisconnect := c.aliveDisconnect.set peer () }
  else c

def handleConnectionClosed (c : HyparviewCall) (peer : PeerID) : HyparviewCall :=
  let c := c.clearPending peer
  if peer ∈ c.active then c.removeActive peer .connectionClosed false true
  else if c.aliveDisconnect.contains peer then
    { c with aliveDisconnect := c.aliveDisconnect.delete peer }
  else { c with passive := c.passive.erase peer, peerData := c.peerData.delete peer }

def handleQuit (c : HyparviewCall) : HyparviewCall :=
  c.active.foldl (fun c peer => { c with active := c.active.erase peer }.sendDisconnect peer false) c

def addPassiveAll (c : HyparviewCall) (nodes : List PeerInfo) : HyparviewCall :=
  nodes.foldl (fun c node => c.addPassive node.id node.data) c

def onShuffle (c : HyparviewCall) (sender : PeerID) (shuffle : Shuffle) : HyparviewCall :=
  if shuffle.ttl = 0 ∨ c.active.length ≤ 1 then
    (c.addPassiveAll shuffle.nodes).sendShuffleReply shuffle.origin shuffle.nodes.length
  else
    c.forwardWalk [shuffle.origin, sender] (.shuffle { shuffle with ttl := shuffle.ttl - 1 })

def onShuffleReply (c : HyparviewCall) (nodes : List PeerInfo) : HyparviewCall :=
  (c.addPassiveAll nodes).refillActiveFromPassive []

def handleShuffleTimer (c : HyparviewCall) : HyparviewCall :=
  let q := PeerList.random c.active c.rand
  let c := { c with rand := q.2 }
  let c :=
    match q.1 with
    | none => c
    | some node =>
      let active := PeerList.shuffledWithoutN c.active c.rand c.config.shuffleActiveViewCount [node]
      let passive :=
        PeerList.shuffledWithoutN c.passive active.2 c.config.shufflePassiveViewCount [node]
      let nodes := (active.1 ++ passive.1).map c.peerInfo ++ [PeerInfo.mk c.me c.meData]
      { c with rand := passive.2 }.emit
        (.sendMessage node (.shuffle ⟨c.me, nodes, c.config.shuffleRandomWalkLength⟩))
  c.emit (.scheduleTimer c.config.shuffleInterval .doShuffle)

def handlePendingNeighborTimer (c : HyparviewCall) (peer : PeerID) : HyparviewCall :=
  if !c.pendingNeighbor.contains peer then c
  else
    let c := c.clearPending peer
    { c with passive := c.passive.erase peer }.refillActiveFromPassive []

/-- The switch of `handleMessage`. -/
def onMessage (c : HyparviewCall) (sender : PeerID) : HyparviewMessage → HyparviewCall
  | .join data => c.onJoin sender data
  | .forwardJoin message => c.onForwardJoin sender message
  | .shuffle message => c.onShuffle sender message
  | .shuffleReply nodes => c.onShuffleReply nodes
  | .neighbor message => c.onNeighbor sender message
  | .disconnect message => c.onDisconnect sender message
  | .unknown _ => c

def isDisconnect : HyparviewMessage → Bool
  | .disconnect _ => true
  | _ => false

def handleMessage (c : HyparviewCall) (sender : PeerID) (message : HyparviewMessage) :
    HyparviewCall :=
  let c :=
    if !isDisconnect message && sender ∉ c.active then
      { c with totalConnections := c.totalConnections + 1 }
    else c
  let c := c.onMessage sender message
  if !isDisconnect message && sender ∉ c.active then c.emit (.disconnectPeer sender) else c

/-- The switch of `Handle`. -/
def handleEvent (c : HyparviewCall) : HyparviewInEvent → HyparviewCall
  | .recvMessage sender message => c.handleMessage sender message
  | .timerExpired .doShuffle => c.handleShuffleTimer
  | .timerExpired (.pendingNeighborRequest peer) => c.handlePendingNeighborTimer peer
  | .timerExpired (.unknown _) => c
  | .peerDisconnected peer => c.handleConnectionClosed peer
  | .requestJoin peer => c.handleJoin peer
  | .updatePeerData data => { c with meData := data }
  | .quit => c.handleQuit
  | .unknown _ => c

def scheduleShuffle (c : HyparviewCall) : HyparviewCall :=
  if c.shuffleScheduled then c
  else
    { c.emit (.scheduleTimer c.config.shuffleInterval .doShuffle) with shuffleScheduled := true }

def forgetStrangers (c : HyparviewCall) : HyparviewCall :=
  { c with peerData := c.peerData.rangeDelete fun peer _ =>
      !c.pendingNeighbor.contains peer && peer ∉ c.active && peer ∉ c.passive }

end HyparviewCall

def HyparviewState.handle (s : HyparviewState) (ev : HyparviewInEvent) :
    HyparviewState × List HyparviewOutEvent :=
  let c := ((HyparviewCall.mk s []).handleEvent ev).scheduleShuffle.forgetStrangers
  (c.toHyparviewState, c.out)

end Iroh.GossipProto
