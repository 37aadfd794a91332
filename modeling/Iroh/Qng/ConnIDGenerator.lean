import Iroh.Common.EState
import Iroh.Common.GoMap

/-!
# Connection IDs that are issued

Reference: `internal/qng/conn_id_generator.go`; `pathForReceivedConnID` and the callers of the generator
are from `internal/qng/connection.go`.

An endpoint issues connection IDs for path 0 and, with multipath, for every other path.  The transport
hands the connection every packet that is addressed to a registered ID; which path the packet belongs to
is looked up in `cidPath`.  An ID that was retired stays registered for a while.

What `GenerateConnectionID` will return is in the state.  Stateless reset tokens are left out.
-/

namespace Iroh.Qng

variable {ID : Type} [DecidableEq ID]

def maxIssuedConnectionIDs : ℕ := 6

def defaultActiveConnectionIDLimit : ℕ := 2

/-- `NewConnectionIDFrame`; PATH_NEW_CONNECTION_ID if it has a path. -/
structure NewConnectionIDFrame (ID : Type) where
  pathID : Option ℕ
  sequenceNumber : ℕ
  connectionID : ID

inductive GenError (ID : Type) where
  /-- `GenerateConnectionID` has failed. -/
  | generate
  | pathIDZero
  /-- A protocol violation: "retired connection ID %d (highest issued: %d)", "on path %d" if there is a
  path. -/
  | retiredUnissued (pid : Option ℕ) (seq highest : ℕ)
  /-- A protocol violation: "retired connection ID %d (%s), which was used as the Destination Connection
  ID on this packet", "on path %d" if there is a path. -/
  | retiredInUse (pid : Option ℕ) (seq : ℕ) (connID : ID)

/-- `connIDGenerator`.  No function reads `issued`, the IDs with the paths that they are for. -/
structure ConnIDGenerator (ID : Type) where
  /-- `ConnectionIDLen` is zero. -/
  zeroLength : Bool
  /-- What the next calls of `GenerateConnectionID` return; `none` is an error. -/
  supply : List (Option ID)
  highestSeq : ℕ
  registered : List ID
  activeSrcConnIDs : GoMap ℕ ID
  cidPath : GoMap ID ℕ
  connIDsToRetire : List (ℕ × ID)
  initialClientDestConnID : Option ID
  pathSrcConnIDs : GoMap ℕ (GoMap ℕ ID)
  pathHighestSeq : GoMap ℕ ℕ
  peerActiveConnIDLimit : ℕ
  maxPathIDWithCIDs : ℕ
  queuedFrames : List (NewConnectionIDFrame ID)
  issued : List (ID × ℕ)

abbrev Generating (ID α : Type) := EStateM (GenError ID) (ConnIDGenerator ID) α

namespace ConnIDGenerator

/-- `newConnIDGenerator`.  The caller has registered both IDs. -/
def new (zeroLength : Bool) (initialConnectionID : ID) (initialClientDestConnID : Option ID)
    (supply : List (Option ID)) : ConnIDGenerator ID where
  zeroLength := zeroLength
  supply := supply
  highestSeq := 0
  registered := initialConnectionID :: initialClientDestConnID.toList
  activeSrcConnIDs := .set .empty 0 initialConnectionID
  cidPath :=
    let paths := GoMap.set .empty initialConnectionID 0
    match initialClientDestConnID with
    | some connID => paths.set connID 0
    | none => paths
  connIDsToRetire := []
  initialClientDestConnID := initialClientDestConnID
  pathSrcConnIDs := .empty
  pathHighestSeq := .empty
  peerActiveConnIDLimit := defaultActiveConnectionIDLimit
  maxPathIDWithCIDs := 0
  queuedFrames := []
  issued := (initialConnectionID, 0) :: initialClientDestConnID.toList.map fun connID => (connID, 0)

def issueCIDsLimit (g : ConnIDGenerator ID) : ℕ := min g.peerActiveConnIDLimit maxIssuedConnectionIDs

def pathIDs (g : ConnIDGenerator ID) (pid : ℕ) : GoMap ℕ ID := (g.pathSrcConnIDs.get? pid).getD .empty

/-! ## Issuing -/

def generateConnectionID : Generating ID ID := fun g =>
  match g.supply with
  | [] => .error .generate g
  | none :: supply => .error .generate { g with supply := supply }
  | some connID :: supply => .ok connID { g with supply := supply }

def addConnID (connID : ID) (g : ConnIDGenerator ID) : ConnIDGenerator ID :=
  { g with
    activeSrcConnIDs := g.activeSrcConnIDs.set (g.highestSeq + 1) connID
    cidPath := g.cidPath.set connID 0
    registered := connID :: g.registered
    queuedFrames := g.queuedFrames ++ [⟨none, g.highestSeq + 1, connID⟩]
    highestSeq := g.highestSeq + 1
    issued := (connID, 0) :: g.issued }

def issueNewConnID : Generating ID Unit := do
  let connID ← generateConnectionID
  modify (addConnID connID)

def addPathConnID (pid : ℕ) (connID : ID) (g : ConnIDGenerator ID) : ConnIDGenerator ID :=
  let seq := (g.pathHighestSeq.get? pid).getD 0
  { g with
    pathSrcConnIDs := g.pathSrcConnIDs.set pid ((g.pathIDs pid).set seq connID)
    cidPath := g.cidPath.set connID pid
    pathHighestSeq := g.pathHighestSeq.set pid (seq + 1)
    registered := connID :: g.registered
    queuedFrames := g.queuedFrames ++ [⟨some pid, seq, connID⟩]
    issued := (connID, pid) :: g.issued }

def issuePathConnID (pid : ℕ) : Generating ID Unit := do
  if pid = 0 then throw .pathIDZero
  else
    let g ← get
    if g.zeroLength then pure ()
    else
      let connID ← generateConnectionID
      modify (addPathConnID pid connID)

/-- The loop that issues up to the budget.  Every turn adds one ID, so that as many turns as the budget
are enough (`length_of_fillPath`). -/
def fillPath (pid budget : ℕ) : ℕ → Generating ID Unit
  | 0 => pure ()
  | fuel + 1 => do
      let g ← get
      if (g.pathIDs pid).len < budget then
        issuePathConnID pid
        fillPath pid budget fuel
      else pure ()

/-- The counting loop of `SetMaxActiveConnIDs` and `IssueFirstPathCIDs` over one path. -/
def topUpPath (budget pid : ℕ) : Generating ID Unit := do
  let g ← get
  times (issuePathConnID pid) (budget - (g.pathIDs pid).len)

def setMaxActiveConnIDs (limit : ℕ) : Generating ID Unit := do
  modify fun g => { g with peerActiveConnIDLimit := limit }
  let g ← get
  if g.zeroLength then pure ()
  else
    times issueNewConnID (g.issueCIDsLimit - g.activeSrcConnIDs.len)
    (List.range' 1 g.maxPathIDWithCIDs).forM (topUpPath g.issueCIDsLimit)

def ensurePathCIDs (pid : ℕ) : Generating ID Unit := do
  let g ← get
  if g.zeroLength then pure ()
  else fillPath pid g.issueCIDsLimit g.issueCIDsLimit

def issueFirstPathCIDs (maxPathID : ℕ) : Generating ID Unit := do
  let raise : ConnIDGenerator ID → ConnIDGenerator ID := fun g =>
    { g with maxPathIDWithCIDs := max maxPathID g.maxPathIDWithCIDs }
  let g ← get
  if g.zeroLength then modify raise
  else
    (List.range' (g.maxPathIDWithCIDs + 1) (maxPathID - g.maxPathIDWithCIDs)).forM
      (topUpPath g.issueCIDsLimit)
    modify raise

/-! ## Retiring -/

/-- `queueConnIDForRetiring`: the list is sorted by time. -/
def queueConnIDForRetiring (connID : ID) (expiry : ℕ) (g : ConnIDGenerator ID) : ConnIDGenerator ID :=
  let (before, after) := g.connIDsToRetire.span fun c => c.1 ≤ expiry
  { g with connIDsToRetire := before ++ (expiry, connID) :: after }

def dropConnID (seq : ℕ) (connID : ID) (expiry : ℕ) (g : ConnIDGenerator ID) : ConnIDGenerator ID :=
  let g := g.queueConnIDForRetiring connID expiry
  { g with
    activeSrcConnIDs := g.activeSrcConnIDs.delete seq
    cidPath := g.cidPath.delete connID }

def retire (seq : ℕ) (sentWithDestConnID : ID) (expiry : ℕ) : Generating ID Unit := fun g =>
  if g.highestSeq < seq then .error (.retiredUnissued none seq g.highestSeq) g
  else
    match g.activeSrcConnIDs.get? seq with
    | none => .ok () g
    | some connID =>
      if connID = sentWithDestConnID then .error (.retiredInUse none seq connID) g
      else
        let g := g.dropConnID seq connID expiry
        -- the initial connection ID is not replaced
        if seq = 0 then .ok () g else issueNewConnID g

/-- What `RetirePath` does with an ID that it finds. -/
def dropPathConnID (pid seq : ℕ) (connID : ID) (expiry : ℕ) (g : ConnIDGenerator ID) :
    ConnIDGenerator ID :=
  let g := g.queueConnIDForRetiring connID expiry
  let ids := (g.pathIDs pid).delete seq
  { g with
    cidPath := g.cidPath.delete connID
    pathSrcConnIDs :=
      if ids.len = 0 then g.pathSrcConnIDs.delete pid else g.pathSrcConnIDs.set pid ids }

def retirePath (pid seq : ℕ) (sentWithDestConnID : ID) (expiry : ℕ) : Generating ID Unit := fun g =>
  let next := (g.pathHighestSeq.get? pid).getD 0
  if pid = 0 then retire seq sentWithDestConnID expiry g
  else if next ≤ seq then .error (.retiredUnissued (some pid) seq (next - 1)) g
  else
    match (g.pathIDs pid).get? seq with
    | none => .ok () g
    | some connID =>
      if connID = sentWithDestConnID then .error (.retiredInUse (some pid) seq connID) g
      else fillPath pid g.issueCIDsLimit g.issueCIDsLimit (g.dropPathConnID pid seq connID expiry)

def setHandshakeComplete (connIDExpiry : ℕ) (g : ConnIDGenerator ID) : ConnIDGenerator ID :=
  match g.initialClientDestConnID with
  | none => g
  | some connID =>
    let g := g.queueConnIDForRetiring connID connIDExpiry
    { g with cidPath := g.cidPath.delete connID, initialClientDestConnID := none }

def removeRetiredConnIDs (now : ℕ) (g : ConnIDGenerator ID) : ConnIDGenerator ID :=
  let (expired, left) := g.connIDsToRetire.span fun c => c.1 ≤ now
  { g with
    registered := g.registered.filter fun connID => connID ∉ expired.map Prod.snd
    connIDsToRetire := left }

/-- `pathForReceivedConnID`, with `pathForLocalConnID` in it. -/
def pathForReceivedConnID (multipathNegotiated : Bool) (g : ConnIDGenerator ID) (connID : ID) : ℕ :=
  if !multipathNegotiated then 0
  else
    match g.cidPath.get? connID with
    | none => 0
    | some pid => pid

inductive Action (ID : Type) where
  | setMaxActiveConnIDs (limit : ℕ)
  | issueFirstPathCIDs (maxPathID : ℕ)
  | ensurePathCIDs (pid : ℕ)
  | retirePath (pid seq : ℕ) (sentWithDestConnID : ID) (expiry : ℕ)
  | setHandshakeComplete (connIDExpiry : ℕ)
  | removeRetiredConnIDs (now : ℕ)

/-- The connection does what concerns other paths than path 0 only if multipath is negotiated. -/
def step (multipathNegotiated : Bool) (g : ConnIDGenerator ID) : Action ID → ConnIDGenerator ID
  | .setMaxActiveConnIDs limit => stateOf (setMaxActiveConnIDs limit g)
  | .issueFirstPathCIDs maxPathID =>
    if multipathNegotiated then stateOf (issueFirstPathCIDs maxPathID g) else g
  | .ensurePathCIDs pid => if multipathNegotiated then stateOf (ensurePathCIDs pid g) else g
  | .retirePath pid seq sentWithDestConnID expiry =>
    if pid = 0 || multipathNegotiated then stateOf (retirePath pid seq sentWithDestConnID expiry g)
    else g
  | .setHandshakeComplete connIDExpiry => g.setHandshakeComplete connIDExpiry
  | .removeRetiredConnIDs now => g.removeRetiredConnIDs now

end ConnIDGenerator

end Iroh.Qng
