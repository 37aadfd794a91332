import Iroh.Qng.SentPacketHistory

/-!
# The sent packet handler

Reference: `internal/qng/internal/ackhandler/sent_packet_handler.go`, `packet_number_generator.go`;
`registerPackedShortHeaderPacket` is from `internal/qng/connection.go`.

The handler after the handshake: the Initial and Handshake spaces are gone, the peer's address is
validated, and every packet is a 1-RTT packet of one of the paths.  Estimates that come from the RTT
(the delay after which a packet is lost, the probe timeout) are arguments.  Congestion control, ECN,
statistics and timers are left out: nothing here reads them.

`PathLog` records what happened on a path.  No function of the handler reads it.
-/

namespace Iroh.Qng.AckHandler

/-- `skippingPacketNumberGenerator`. -/
structure PacketNumberGenerator where
  next : ℕ
  nextToSkip : ℕ
  period : ℕ
  maxPeriod : ℕ

namespace PacketNumberGenerator

/-- `generateNewSkip`, where `r` is random. -/
def generateNewSkip (g : PacketNumberGenerator) (r : ℕ) : PacketNumberGenerator :=
  { g with nextToSkip := g.next + 3 + r % (2 * g.period), period := min (2 * g.period) g.maxPeriod }

/-- `newSkippingPacketNumberGenerator(0, SkipPacketInitialPeriod, SkipPacketMaxPeriod)`. -/
def new (r : ℕ) : PacketNumberGenerator := generateNewSkip ⟨0, 0, 256, 128 * 1024⟩ r

/-- `Pop`: whether the number before was skipped, and the number. -/
def pop (g : PacketNumberGenerator) (r : ℕ) : Bool × ℕ × PacketNumberGenerator :=
  if g.next = g.nextToSkip then (true, g.next + 1, generateNewSkip { g with next := g.next + 2 } r)
  else (false, g.next, { g with next := g.next + 1 })

end PacketNumberGenerator

/-! ## Paths -/

/-- What happened on a path: the packets sent, the acknowledgements that were processed, and the numbers
declared lost. -/
structure PathLog where
  sent : List (ℕ × Packet)
  acks : List AckFrame
  lost : List ℕ

/-- `appDataPath` with its `packetNumberSpace`. -/
structure AppDataPath where
  history : SentPacketHistory
  pns : PacketNumberGenerator
  lossTime : Option ℕ
  lastAckElicitingPacketTime : Option ℕ
  largestAcked : Option ℕ
  largestSent : Option ℕ
  bytesInFlight : ℕ
  log : PathLog

def AppDataPath.new (r : ℕ) : AppDataPath := ⟨.new, .new r, none, none, none, none, 0, ⟨[], [], []⟩⟩

/-- `sentPacketHandler`.  `pathList` has the numbers of the paths, in the order they were added. -/
structure SentPacketHandler where
  appDataPaths : ℕ → Option AppDataPath
  pathList : List ℕ

namespace SentPacketHandler

def new (r : ℕ) : SentPacketHandler where
  appDataPaths := Function.update (fun _ => none) 0 (some (.new r))
  pathList := [0]

/-- `getAppDataPath`, whose result is dereferenced. -/
def getAppDataPath (h : SentPacketHandler) (pid : ℕ) : Except HandlerError AppDataPath :=
  match h.appDataPaths pid with
  | some path => pure path
  | none => throw (.panic "nil pointer dereference")

def set (h : SentPacketHandler) (pid : ℕ) (path : AppDataPath) : SentPacketHandler :=
  { h with appDataPaths := Function.update h.appDataPaths pid (some path) }

/-- `AddPath`.  An error is returned for a path that exists. -/
def addPath (h : SentPacketHandler) (pid r : ℕ) : SentPacketHandler :=
  if pid = 0 then h
  else if (h.appDataPaths pid).isSome then h
  else { h.set pid (.new r) with pathList := h.pathList ++ [pid] }

def removePath (h : SentPacketHandler) (pid : ℕ) : SentPacketHandler :=
  if pid = 0 then h
  else
    { appDataPaths := Function.update h.appDataPaths pid none
      pathList := h.pathList.filter (· ≠ pid) }

/-! ## Sending -/

def popPacketNumberForPath (h : SentPacketHandler) (pid r : ℕ) :
    Except HandlerError (ℕ × SentPacketHandler) :=
  match h.appDataPaths pid with
  | none => throw (.panic ("PopPacketNumberForPath: unknown path " ++ toString pid))
  | some path => do
      let popped := path.pns.pop r
      let history ←
        if popped.1 then path.history.skippedPacket (popped.2.1 - 1) else pure path.history
      return (popped.2.1, h.set pid { path with pns := popped.2.2, history := history })

/-- `sentPacket` at the 1-RTT level.  With a `streamFrame` it is `SentPacketOneStream`, which does the
same on path 0. -/
def sentPacket (h : SentPacketHandler) (t pn pid : ℕ) (streamFrame : Option StreamFrame)
    (streamFrames : List StreamFrame) (frames : List Frame) (size : ℕ)
    (isPathMTUProbePacket isPathProbePacket : Bool) : Except HandlerError SentPacketHandler := do
  let path ← h.getAppDataPath pid
  let p : Packet :=
    { sendTime := t
      streamFrame := streamFrame
      streamFrames := streamFrames
      frames := frames
      length := size
      isPathMTUProbePacket := isPathMTUProbePacket
      includedInBytesInFlight := false
      isPathProbePacket := isPathProbePacket
      pathID := pid }
  let path := { path with largestSent := some pn }
  if isPathProbePacket then do
    let history ← path.history.sentPathProbePacket pn p
    return h.set pid { path with
      history := history, log := { path.log with sent := path.log.sent ++ [(pn, p)] } }
  else do
    let isAckEliciting := p.isAckEliciting
    let p := { p with includedInBytesInFlight := isAckEliciting }
    let history ← path.history.sentPacket pn p
    return h.set pid { path with
      lastAckElicitingPacketTime := if isAckEliciting then some t else path.lastAckElicitingPacketTime
      bytesInFlight := path.bytesInFlight + if isAckEliciting then size else 0
      history := history
      log := { path.log with sent := path.log.sent ++ [(pn, p)] } }

def registerPackedShortHeaderPacket (h : SentPacketHandler) (p : ShortHeaderPacket) (pn t : ℕ) :
    Except HandlerError SentPacketHandler :=
  if p.isPathProbePacket then
    h.sentPacket t pn 0 none p.streamFrames p.frames p.length p.isPathMTUProbePacket true
  else if p.pathID ≠ 0 then
    h.sentPacket t pn p.pathID none p.streamFrames p.frames p.length p.isPathMTUProbePacket false
  else if p.streamFrame.isSome && p.streamFrames.isEmpty then
    h.sentPacket t pn 0 p.streamFrame [] p.frames p.length p.isPathMTUProbePacket false
  else
    h.sentPacket t pn 0 none p.streamFrames p.frames p.length p.isPathMTUProbePacket false

/-- A packer makes a packet, which gets the next number of its path and is registered.  Nothing is
packed for a path that is not there. -/
def send (h : SentPacketHandler) (call : PackerCall) (t r : ℕ) :
    Except HandlerError SentPacketHandler :=
  match call.packet with
  | .error _ => pure h
  | .ok p =>
    if (h.appDataPaths p.pathID).isNone then pure h
    else do
      let popped ← h.popPacketNumberForPath p.pathID r
      popped.2.registerPackedShortHeaderPacket p popped.1 t

/-! ## Losing packets -/

/-- `removeFromBytesInFlight`, on the path that `bytesInFlightForPacket` finds. -/
def removeFromBytesInFlight (h : SentPacketHandler) (p : Packet) :
    Except HandlerError SentPacketHandler :=
  if p.includedInBytesInFlight then do
    let pid := if (h.appDataPaths p.pathID).isSome then p.pathID else 0
    let path ← h.getAppDataPath pid
    if path.bytesInFlight < p.length then throw (.panic "negative bytes_in_flight")
    else return h.set pid { path with bytesInFlight := path.bytesInFlight - p.length }
  else pure h

/-- `queueFramesForRetransmission`.  The frames go to their handlers. -/
def queueFramesForRetransmission (p : Packet) : Except HandlerError Unit :=
  if p.frames.length = 0 && p.streamFrame.isNone && p.streamFrames.length = 0 then
    throw (.panic "no frames")
  else pure ()

/-- `DeclareLost` on the history of a path. -/
def declareLost (h : SentPacketHandler) (pid pn : ℕ) : Except HandlerError SentPacketHandler := do
  let path ← h.getAppDataPath pid
  let history ← path.history.declareLost pn
  return h.set pid { path with
    history := history, log := { path.log with lost := path.log.lost ++ [pn] } }

/-- The body of the loop in `detectLostPackets`, for a packet that is lost. -/
def losePacket (h : SentPacketHandler) (pid : ℕ) (e : ℕ × Packet) :
    Except HandlerError SentPacketHandler := do
  let h ← h.declareLost pid e.1
  if !e.2.isPathProbePacket && e.2.isAckEliciting then do
    let h ← h.removeFromBytesInFlight e.2
    queueFramesForRetransmission e.2
    return h
  else return h

def packetThreshold : ℕ := 3

/-- The loop of `detectLostPackets`. -/
def detectLostLoop (now lossDelay pid largestAcked : ℕ) (difference : ℕ → ℕ) :
    List (ℕ × Packet) → SentPacketHandler → Except HandlerError SentPacketHandler
  | [], h => pure h
  | e :: rest, h =>
    if largestAcked < e.1 then pure h
    else if e.2.sendTime + lossDelay ≤ now || packetThreshold ≤ difference e.1 then do
      let h ← h.losePacket pid e
      detectLostLoop now lossDelay pid largestAcked difference rest h
    else do
      let path ← h.getAppDataPath pid
      let lossTime := path.lossTime.getD (e.2.sendTime + lossDelay)
      detectLostLoop now lossDelay pid largestAcked difference rest
        (h.set pid { path with lossTime := some lossTime })

def detectLostPackets (h : SentPacketHandler) (now lossDelay pid : ℕ) :
    Except HandlerError SentPacketHandler := do
  let path ← h.getAppDataPath pid
  let h := h.set pid { path with lossTime := none }
  match path.largestAcked with
  | none => pure h
  | some largestAcked =>
    detectLostLoop now lossDelay pid largestAcked (path.history.difference largestAcked)
      path.history.entries h

/-- `pathProbePacketLossTimeout`, in nanoseconds. -/
def pathProbePacketLossTimeout : ℕ := 1000000000

def detectLostPathProbes (h : SentPacketHandler) (now : ℕ) :
    Except HandlerError SentPacketHandler := do
  let path ← h.getAppDataPath 0
  let history := { path.history with
    pathProbePackets := path.history.pathProbePackets.filter fun e =>
      now < e.2.sendTime + pathProbePacketLossTimeout }
  return h.set 0 { path with history := history }

/-- The loop of `declareAppDataPathLost`. -/
def declareLostLoop (pid : ℕ) :
    List (ℕ × Packet) → SentPacketHandler → Except HandlerError SentPacketHandler
  | [], h => pure h
  | e :: rest, h => do
      let h ← h.declareLost pid e.1
      if !e.2.isPathProbePacket then do
        let h ← h.removeFromBytesInFlight e.2
        if e.2.isAckEliciting then queueFramesForRetransmission e.2
        declareLostLoop pid rest h
      else declareLostLoop pid rest h

/-- `declareAppDataPathLost`.  Only path 0 has path probes. -/
def declareAppDataPathLost (h : SentPacketHandler) (pid : ℕ) :
    Except HandlerError SentPacketHandler :=
  match h.appDataPaths pid with
  | none => pure h
  | some path => declareLostLoop pid path.history.entries h

/-- `QueueProbePacket` at the 1-RTT level. -/
def queueProbePacket (h : SentPacketHandler) : Except HandlerError SentPacketHandler := do
  let path ← h.getAppDataPath 0
  match path.history.firstOutstanding with
  | none => return h
  | some e => do
      let h ← h.declareLost 0 e.1
      let h ← h.removeFromBytesInFlight e.2
      queueFramesForRetransmission e.2
      return h

/-! ## Acknowledgements -/

def skipRanges (pn : ℕ) : List AckRange → List AckRange
  | r :: r' :: ranges => if r.largest < pn then skipRanges pn (r' :: ranges) else r :: r' :: ranges
  | ranges => ranges

/-- The loop of `detectAndRemoveAckedPackets` over the packets, where `ranges` are those of the frame
from the current one on, the lowest first. -/
def ackedLoop (ack : AckFrame) : List AckRange → List (ℕ × Packet) → SentPacketHistory →
    Except HandlerError (List (ℕ × Packet) × SentPacketHistory)
  | _, [], history => pure ([], history)
  | ranges, e :: rest, history =>
    if e.1 < ack.lowestAcked then ackedLoop ack ranges rest history
    else if ack.largestAcked < e.1 then pure ([], history)
    else
      let ranges := if 1 < ack.ackRanges.length then skipRanges e.1 ranges else ranges
      if 1 < ack.ackRanges.length && ranges.head?.any (e.1 < ·.smallest) then
        ackedLoop ack ranges rest history
      else if 1 < ack.ackRanges.length && ranges.head?.any (·.largest < e.1) then
        throw (.other ("BUG: ackhandler would have acked wrong packet " ++ toString e.1))
      else if e.2.isPathProbePacket then
        match history.removePathProbe e.1 with
        | (history, none) => ackedLoop ack ranges rest history
        | (history, some probePacket) => do
            let r ← ackedLoop ack ranges rest history
            return ((e.1, probePacket) :: r.1, r.2)
      else do
        let r ← ackedLoop ack ranges rest history
        return (e :: r.1, r.2)

def removeAll (history : SentPacketHistory) :
    List (ℕ × Packet) → Except HandlerError SentPacketHistory
  | [] => pure history
  | e :: rest => do
      let history ← history.remove e.1
      removeAll history rest

def detectAndRemoveAckedPackets (path : AppDataPath) (ack : AckFrame) :
    Except HandlerError (List (ℕ × Packet) × AppDataPath) :=
  match path.history.skippedPackets.find? ack.acksPacket with
  | some p => throw (.protocolViolation
      ("received an ACK for skipped packet number: " ++ toString p ++ " (1-RTT)"))
  | none => do
      let r ← ackedLoop ack ack.ackRanges.reverse path.history.entries path.history
      let history ← removeAll r.2 r.1
      return (r.1, { path with
        history := history, log := { path.log with acks := path.log.acks ++ [ack] } })

def removeAckedBytes : List (ℕ × Packet) → SentPacketHandler → Except HandlerError SentPacketHandler
  | [], h => pure h
  | e :: rest, h => do
      let h ← h.removeFromBytesInFlight e.2
      removeAckedBytes rest h

def receivedAckForPath (h : SentPacketHandler) (ack : AckFrame) (pid rcvTime lossDelay : ℕ) :
    Except HandlerError SentPacketHandler :=
  match h.appDataPaths pid with
  | none => throw (.protocolViolation ("received ACK for unknown path " ++ toString pid))
  | some path =>
    if path.largestSent.all (· < ack.largestAcked) then
      throw (.protocolViolation "received ACK for an unsent packet")
    else do
      let r ← detectAndRemoveAckedPackets path ack
      let h := h.set pid r.2
      if r.1.isEmpty then return h
      else do
        let largestAcked := max (r.2.largestAcked.getD 0) ack.largestAcked
        let h := h.set pid { r.2 with largestAcked := some largestAcked }
        let h ← h.detectLostPackets rcvTime lossDelay pid
        let h ← h.detectLostPathProbes rcvTime
        removeAckedBytes r.1 h

/-! ## Timers -/

def earlier (best : Option (ℕ × ℕ)) (t : Option ℕ) (pid : ℕ) : Option (ℕ × ℕ) :=
  match best, t with
  | none, t => t.map (·, pid)
  | some best, none => some best
  | some best, some t => if t < best.1 then some (t, pid) else some best

def getLossTimeAndSpace (h : SentPacketHandler) : Option (ℕ × ℕ) :=
  h.pathList.foldl (fun best pid => earlier best ((h.appDataPaths pid).bind (·.lossTime)) pid) none

/-- `getPTOTimeAndSpace`, where `scaledPTO` is what `getScaledPTO` returns. -/
def getPTOTimeAndSpace (h : SentPacketHandler) (scaledPTO : ℕ) : Option (ℕ × ℕ) :=
  h.pathList.foldl (fun best pid =>
    earlier best ((h.appDataPaths pid).bind fun path =>
      if path.history.numOutstanding = 0 then none
      else path.lastAckElicitingPacketTime.map (· + scaledPTO)) pid) none

def onLossDetectionTimeout (h : SentPacketHandler) (now lossDelay scaledPTO r : ℕ) :
    Except HandlerError SentPacketHandler := do
  let h ← h.detectLostPathProbes now
  match h.getLossTimeAndSpace with
  | some (_, pid) => h.detectLostPackets now lossDelay pid
  | none =>
    match h.getPTOTimeAndSpace scaledPTO with
    | none => return h
    | some (_, pid) =>
      if pid ≠ 0 then h.declareAppDataPathLost pid
      else do
        -- a packet number is skipped, in order to elicit an immediate ACK
        let popped ← h.popPacketNumberForPath 0 r
        let path ← popped.2.getAppDataPath 0
        let history ← path.history.skippedPacket popped.1
        return popped.2.set 0 { path with history := history }

end SentPacketHandler

end Iroh.Qng.AckHandler
