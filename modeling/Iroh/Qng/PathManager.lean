import Mathlib.Data.Int.Order.Basic
import Iroh.Qng.Frames

/-!
# Migration of the client, as the server follows it

Reference: `internal/qng/path_manager.go`; `handleShortHeaderPacket`, `handleUnpackedShortHeaderPacket`
and `handleFrames` are from `internal/qng/connection.go`.

The server keeps up to three addresses other than the current one, each with the PATH_CHALLENGE it was
sent, and switches to one that is validated when a packet that is not a probe has come from there.

The packets are those that are decrypted and handled without an error; each comes with what is drawn or
looked up while it is handled.  A PATH_RESPONSE is one that neither a NAT traversal probe nor a
multipath challenge has claimed.
-/

namespace Iroh.Qng

universe u

variable {Addr : Type u} [DecidableEq Addr]

/-! ## The path manager -/

def maxPaths : ℕ := 3

/-- `pathTimeout`, in nanoseconds. -/
def pathTimeout : ℕ := 5000000000

/-- `path`. -/
structure MigrationPath (Addr : Type u) where
  id : ℕ
  addr : Addr
  lastPacketTime : ℕ
  pathChallenge : Token
  validated : Bool
  rcvdNonProbing : Bool
deriving DecidableEq

structure PathManager (Addr : Type u) where
  nextPathID : ℕ
  paths : List (MigrationPath Addr)
deriving DecidableEq

namespace PathManager

def new : PathManager Addr := ⟨0, []⟩

/-- The rest of `HandlePacket`, for an address that is new or that has sent a PATH_CHALLENGE.  `connID`
is whether `getConnID` finds a connection ID, `random` the challenge for a new address. -/
def probe (pm : PathManager Addr) (seen : Bool) (addr : Addr) (t : ℕ) (pathChallenge : Option Token)
    (isNonProbing connID : Bool) (random : Token) : PathManager Addr × List ControlFrame :=
  let full := decide (maxPaths ≤ pm.paths.length)
  if full && pm.paths.head?.any (fun p => t < p.lastPacketTime + pathTimeout) then (pm, [])
  else
    -- the oldest path is evicted
    let pm := if full then { pm with paths := pm.paths.drop 1 } else pm
    let response := pathChallenge.toList.map ControlFrame.pathResponse
    if !connID then (pm, [])
    else if seen then (pm, response)
    else
      let p : MigrationPath Addr := ⟨pm.nextPathID, addr, t, random, false, isNonProbing⟩
      (⟨pm.nextPathID + 1, pm.paths ++ [p]⟩, .pathChallenge random :: response)

/-- `HandlePacket`: the frames to send, and whether to switch to the address. -/
def handlePacket (pm : PathManager Addr) (addr : Addr) (t : ℕ) (pathChallenge : Option Token)
    (isNonProbing connID : Bool) (random : Token) : PathManager Addr × List ControlFrame × Bool :=
  match pm.paths.find? (·.addr = addr) with
  | none =>
    let r := pm.probe false addr t pathChallenge isNonProbing connID random
    (r.1, r.2, false)
  | some p =>
    let p := { p with lastPacketTime := t, rcvdNonProbing := p.rcvdNonProbing || isNonProbing }
    let shouldSwitch := p.validated && p.rcvdNonProbing
    -- the path moves to the end of the list
    let pm := { pm with paths := pm.paths.eraseP (·.addr = addr) ++ [p] }
    if pathChallenge.isNone then (pm, [], shouldSwitch)
    else
      let r := pm.probe true addr t pathChallenge isNonProbing connID random
      (r.1, r.2, shouldSwitch)

/-- The loop of `HandlePathResponseFrame`. -/
def validateFirst (data : Token) : List (MigrationPath Addr) → List (MigrationPath Addr)
  | [] => []
  | p :: paths =>
    if p.pathChallenge = data then { p with validated := true } :: paths
    else p :: validateFirst data paths

def handlePathResponseFrame (pm : PathManager Addr) (data : Token) : PathManager Addr :=
  { pm with paths := validateFirst data pm.paths }

/-- `OnLost`, of a PATH_CHALLENGE. -/
def onLost (pm : PathManager Addr) (data : Token) : PathManager Addr :=
  { pm with paths := pm.paths.eraseP (·.pathChallenge = data) }

def switchToPath (pm : PathManager Addr) : PathManager Addr := { pm with paths := [] }

end PathManager

/-! ## Packets -/

inductive RcvdFrame where
  | pathChallenge (data : Token)
  | pathResponse (data : Token)
  /-- An acknowledgement, by which some PATH_CHALLENGEs of the path manager are found lost. -/
  | ack (lost : List Token)
  | other (probing : Bool)
deriving DecidableEq

namespace RcvdFrame

def isProbing : RcvdFrame → Bool
  | .pathChallenge _ => true
  | .pathResponse _ => true
  | .ack _ => false
  | .other probing => probing

def challenge : RcvdFrame → Option Token
  | .pathChallenge data => some data
  | _ => none

end RcvdFrame

/-- `handleFrame`, as far as the path manager is concerned. -/
def PathManager.handleFrame (pm : PathManager Addr) : RcvdFrame → PathManager Addr
  | .pathResponse data => pm.handlePathResponseFrame data
  | .ack lost => lost.foldl onLost pm
  | _ => pm

/-- A 1-RTT packet that is received.  `tooOld` is whether its number is below those that the history of
its path still covers, `expired` the PATH_CHALLENGEs that a timer has found lost since the last one. -/
structure RcvdPacket (Addr : Type u) where
  pid : ℕ
  pn : ℕ
  remoteAddr : Addr
  rcvTime : ℕ
  frames : List RcvdFrame
  tooOld : Bool
  expired : List Token
  connID : Bool
  random : Token

namespace RcvdPacket

def isNonProbing (p : RcvdPacket Addr) : Bool := p.frames.any fun f => !f.isProbing

/-- The PATH_CHALLENGE that `handleUnpackedShortHeaderPacket` returns: the last of the packet, unless the
packet came on another path, where it is answered. -/
def pathChallenge (p : RcvdPacket Addr) : Option Token :=
  if p.pid = 0 then (p.frames.filterMap RcvdFrame.challenge).getLast? else none

end RcvdPacket

/-! ## The server -/

/-- The part of a server's connection that decides on migration.  No function reads `largestPath0`, the
largest number received on path 0; −1 is `InvalidPacketNumber`. -/
structure Server (Addr : Type u) where
  remote : Addr
  largestRcvdAppData : ℤ
  received : ℕ → List ℕ
  pathManager : PathManager Addr
  largestPath0 : ℤ

namespace Server

/-- A connection that has received no 1-RTT packet, where `zeroRTT` is the largest number of a 0-RTT
packet. -/
def new (remote : Addr) (zeroRTT : Option ℕ) : Server Addr :=
  let largest := zeroRTT.elim (-1) Int.ofNat
  ⟨remote, largest, fun _ => [], .new, largest⟩

/-- `isPotentiallyDuplicate1RTT`. -/
def isPotentiallyDuplicate (s : Server Addr) (p : RcvdPacket Addr) : Bool :=
  decide (p.pn ∈ s.received p.pid) || p.tooOld

def expire (s : Server Addr) (p : RcvdPacket Addr) : Server Addr :=
  { s with pathManager := p.expired.foldl PathManager.onLost s.pathManager }

def afterFrames (s : Server Addr) (p : RcvdPacket Addr) : PathManager Addr :=
  p.frames.foldl PathManager.handleFrame s.pathManager

def noteNumber (s : Server Addr) (p : RcvdPacket Addr) : Server Addr :=
  { s with
    largestRcvdAppData := max s.largestRcvdAppData p.pn
    largestPath0 := if p.pid = 0 then max s.largestPath0 p.pn else s.largestPath0 }

/-- The packet is handled: `handleUnpackedShortHeaderPacket`. -/
def handleUnpacked (s : Server Addr) (p : RcvdPacket Addr) : Server Addr :=
  { s with
    received := Function.update s.received p.pid (p.pn :: s.received p.pid)
    pathManager := s.afterFrames p }

/-- The end of `handleShortHeaderPacket`: a packet from another address may bring a switch. -/
def checkMigration (s : Server Addr) (p : RcvdPacket Addr) : Server Addr × Bool :=
  if p.remoteAddr = s.remote then (s, false)
  else
    let r := s.pathManager.handlePacket p.remoteAddr p.rcvTime p.pathChallenge p.isNonProbing p.connID
      p.random
    if !r.2.2 || (p.pn : ℤ) ≠ s.largestRcvdAppData then ({ s with pathManager := r.1 }, false)
    else ({ s with pathManager := r.1.switchToPath, remote := p.remoteAddr }, true)

/-- `handleShortHeaderPacket`: the state, and whether the remote address was switched. -/
def handleShortHeaderPacket (s : Server Addr) (p : RcvdPacket Addr) : Server Addr × Bool :=
  let s := s.noteNumber p
  if s.isPotentiallyDuplicate p then (s, false)
  else (s.handleUnpacked p).checkMigration p

def step (s : Server Addr) (p : RcvdPacket Addr) : Server Addr :=
  ((s.expire p).handleShortHeaderPacket p).1

end Server

end Iroh.Qng
