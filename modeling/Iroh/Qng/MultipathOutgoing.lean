import Iroh.Qng.PacketPacker

/-!
# Sending on the paths of a multipath connection

Reference: `internal/qng/multipath_outgoing.go`, `send_queue.go`; `maybeJoinPath` and
`queueMultipathPathResponse` are from `internal/qng/connection.go`.

`driveMultipath` goes through the open paths, in the order of a Go map, and sends at most one packet with
the PATH_RESPONSEs that are owed and one with a PATH_CHALLENGE or data.  What it reads from the rest of
the connection (the connection ID of the path, the size of packets, the send mode, the acknowledgement
that is due, random numbers) comes with each `Visit`.  The goroutine of the send queue takes packets out
at any time.

`ControlLog` records what happened on a path.  No function reads it.
-/

namespace Iroh.Qng

def sendQueueCapacity : ℕ := 64

def sendQueueInlinePacketSize : ℕ := 256

/-- `sendQueue`, by the number of packets in it. -/
structure SendQueue where
  len : ℕ
  bound : len ≤ sendQueueCapacity
deriving DecidableEq

namespace SendQueue

def new : SendQueue := ⟨0, Nat.zero_le _⟩

def wouldBlock (q : SendQueue) : Bool := q.len = sendQueueCapacity

def drain (q : SendQueue) (n : ℕ) : SendQueue := ⟨q.len - n, Nat.le_trans (Nat.sub_le ..) q.bound⟩

/-- `Send`, of a packet of a size.  A small one is written at once if the queue is idle and the socket
takes it.  There is no result where `Send` panics. -/
def send (q : SendQueue) (size : ℕ) (inlineWrite : Bool) : Option SendQueue :=
  if inlineWrite && size ≤ sendQueueInlinePacketSize && q.len = 0 then some q
  else if h : q.len < sendQueueCapacity then some ⟨q.len + 1, h⟩
  else none

def fill (q : SendQueue) (n : ℕ) : SendQueue := ⟨min (q.len + n) sendQueueCapacity, Nat.min_le_right ..⟩

end SendQueue

/-! ## Paths -/

structure AddrPort where
  addr : ℕ
  port : ℕ
deriving DecidableEq

/-- What happened on a path: the PATH_CHALLENGEs received, the tokens that were recorded for our own, and
the packets handed to the send queue. -/
structure ControlLog where
  received : List Token
  recorded : List Token
  handed : List (List Frame)
deriving DecidableEq

/-- `pathOpenState`.  A route that is not valid is none. -/
structure PathOpenState where
  challenges : List Token
  challengeSent : Bool
  validated : Bool
  pendingResponses : List Token
  sendData : List Bytes
  qntRoute : Option AddrPort
  cidBlockedSent : Bool
  log : ControlLog
deriving DecidableEq

namespace PathOpenState

def new (validated : Bool) (qntRoute : Option AddrPort) : PathOpenState :=
  ⟨[], false, validated, [], [], qntRoute, false, ⟨[], [], []⟩⟩

def hasInvalidQNTRoute (st : PathOpenState) : Bool := st.qntRoute.any (·.port = 0)

def pathSendQueueBlocked (st : PathOpenState) (q : SendQueue) : Bool :=
  st.qntRoute.isNone && q.wouldBlock

end PathOpenState

inductive DriveError where
  | pack (e : PackError)
  /-- `sendQueue.Send would have blocked`. -/
  | panic
deriving DecidableEq

inductive SendMode where
  | none
  | ack
  | ptoInitial
  | ptoHandshake
  | ptoAppData
  | pacingLimited
  | any
deriving DecidableEq

def SendMode.allowsPath : SendMode → Bool
  | .any => true
  | .ack => true
  | _ => false

/-- What `driveMultipath` finds when it comes to a path.  There is a header if the peer has issued a
connection ID for the path. -/
structure Visit where
  pid : ℕ
  hdr : Option ShortHeader
  maxPacketSize : ℕ
  mode : SendMode
  token : Token
  ack : Option AckFrame
  inlineWrite : Bool
  /-- What the queue's goroutine has sent before each of the two packets. -/
  drained : ℕ × ℕ
  hdr_bounds : ∀ h ∈ hdr, h.connIDLen ≤ 20 ∧ 1 ≤ h.pnLen ∧ h.pnLen ≤ 4
  size_bound : minInitialPacketSize ≤ maxPacketSize

structure PathCall where
  queue : SendQueue
  st : PathOpenState
  err : Option DriveError

namespace PathCall

/-- `sendPathBuffer`.  A valid route has an address. -/
def sendPathBuffer (c : PathCall) (frames : List Frame) (size : ℕ) (inlineWrite : Bool) : PathCall :=
  let st := { c.st with log := { c.st.log with handed := c.st.log.handed ++ [frames] } }
  if c.st.qntRoute.isSome then { c with st := st }
  else
    match c.queue.send size inlineWrite with
    | some queue => { c with queue := queue, st := st }
    | none => { c with err := some .panic }

def sendPathPacket (c : PathCall) (pid : ℕ) (hdr : ShortHeader) (frames : List ControlFrame)
    (maxPacketSize : ℕ) : PathCall :=
  if c.st.hasInvalidQNTRoute then c
  else if c.st.pathSendQueueBlocked c.queue then c
  else
    match packPathFramesPacket hdr pid frames maxPacketSize with
    | .error e => { c with err := some (.pack e) }
    | .ok p => c.sendPathBuffer p.frames p.length false

/-- The first part of the loop of `driveMultipath`: the PATH_RESPONSEs that are owed. -/
def flushResponses (c : PathCall) (v : Visit) (hdr : ShortHeader) : PathCall :=
  let c := { c with queue := c.queue.drain v.drained.1 }
  if 0 < c.st.pendingResponses.length then
    let frames := c.st.pendingResponses.map .pathResponse
    let c := { c with st := { c.st with pendingResponses := [] } }
    c.sendPathPacket v.pid hdr frames v.maxPacketSize
  else c

def sendPathChallenge (c : PathCall) (v : Visit) (hdr : ShortHeader) : PathCall :=
  if c.st.challengeSent then c
  else if !v.mode.allowsPath then c
  else
    let st := { c.st with
      challenges := c.st.challenges ++ [v.token]
      challengeSent := true
      log := { c.st.log with recorded := c.st.log.recorded ++ [v.token] } }
    sendPathPacket { c with st := st } v.pid hdr [.pathChallenge v.token] v.maxPacketSize

def sendOnPath (c : PathCall) (v : Visit) (hdr : ShortHeader) : PathCall :=
  if c.st.hasInvalidQNTRoute then c
  else if c.st.pathSendQueueBlocked c.queue then c
  else if !v.mode.allowsPath then c
  else
    -- on SendAck the data is held
    let datagrams := if v.mode = .any then c.st.sendData else []
    match appendPacketForPath (some hdr) v.pid v.ack datagrams v.maxPacketSize with
    | .error .nothingToPack => c
    | .error e => { c with err := some (.pack e) }
    | .ok (p, packed) =>
      let st := { c.st with sendData := c.st.sendData.drop packed }
      sendPathBuffer { c with st := st } p.frames p.length v.inlineWrite

def sendNext (c : PathCall) (v : Visit) (hdr : ShortHeader) : PathCall :=
  if c.err.isSome then c
  else
    let c := { c with queue := c.queue.drain v.drained.2 }
    if c.st.validated then c.sendOnPath v hdr else c.sendPathChallenge v hdr

/-- The body of the loop of `driveMultipath`.  Without a connection ID a PATH_CIDS_BLOCKED is queued
once. -/
def visit (c : PathCall) (v : Visit) : PathCall :=
  match v.hdr with
  | none => { c with st := { c.st with cidBlockedSent := true } }
  | some hdr => (c.flushResponses v hdr).sendNext v hdr

end PathCall

/-! ## The connection -/

/-- The part of a connection that `driveMultipath` works on.  A connection that has failed is closed. -/
structure MultipathConn where
  handshakeConfirmed : Bool
  paths : ℕ → Option PathOpenState
  nextPathID : ℕ
  queue : SendQueue
  failed : Option DriveError

namespace MultipathConn

def new : MultipathConn := ⟨false, fun _ => none, 1, .new, none⟩

def set (c : MultipathConn) (pid : ℕ) (st : PathOpenState) : MultipathConn :=
  { c with paths := Function.update c.paths pid (some st) }

/-- The path at the next number, of `openPathLocked` and `qntOpenValidatedPathLocked`. -/
def openPath (c : MultipathConn) (st : PathOpenState) : MultipathConn :=
  { c.set c.nextPathID st with nextPathID := c.nextPathID + 1 }

def maybeJoinPath (c : MultipathConn) (pid : ℕ) : MultipathConn :=
  if pid = 0 then c
  else if (c.paths pid).isSome then c
  else
    { c.set pid (.new true none) with
      nextPathID := if c.nextPathID ≤ pid then pid + 1 else c.nextPathID }

/-- `queueMultipathPathResponse` on a packet with PATH_CHALLENGEs: `handleFrames` returns the last of
them. -/
def queueMultipathPathResponse (c : MultipathConn) (pid : ℕ) (challenges : List Token) :
    MultipathConn :=
  match c.paths pid with
  | none => c
  | some st =>
    c.set pid { st with
      pendingResponses := st.pendingResponses ++ challenges.getLast?.toList
      log := { st.log with received := st.log.received ++ challenges } }

/-- `handleMultipathPathResponse`, with the order in which it goes through the paths. -/
def handleMultipathPathResponse (c : MultipathConn) (data : Token) : List ℕ → MultipathConn
  | [] => c
  | pid :: order =>
    match c.paths pid with
    | none => handleMultipathPathResponse c data order
    | some st =>
      if data ∈ st.challenges then
        if st.validated then c else c.set pid { st with validated := true, challenges := [] }
      else handleMultipathPathResponse c data order

/-- `drainPathDatagrams`, of one datagram. -/
def drainPathDatagram (c : MultipathConn) (pid : ℕ) (data : Bytes) : MultipathConn :=
  match c.paths pid with
  | none => c
  | some st => c.set pid { st with sendData := st.sendData ++ [data] }

def visit (c : MultipathConn) (v : Visit) : MultipathConn :=
  if c.failed.isSome then c
  else
    match c.paths v.pid with
    | none => c
    | some st =>
      let r := PathCall.visit ⟨c.queue, st, none⟩ v
      { c.set v.pid r.st with queue := r.queue, failed := r.err }

def driveMultipath (c : MultipathConn) (visits : List Visit) : MultipathConn :=
  if c.handshakeConfirmed then visits.foldl visit c else c

end MultipathConn

end Iroh.Qng
