import Iroh.Common.Runs
import Iroh.Relay.Messages

/-!
# The relay server

Reference: `relayserver/server.go` (`handleRelay` after authentication, `handleClientMsg`, `register`,
`unregister`, `enqueue`, `noteSentTo`, `replace`, `writeLoop`).

A session is the place of its `handleRelay` among all of them.  An action is a locked section of the
server, an `enqueue`, or a write: a datagram is noted when its destination is looked up and queued later,
when the session found may have been replaced or be gone.
-/

namespace Iroh.Relay

variable {valid : Bytes32 → Bool}

def perClientSendQueueDepth : ℕ := 512

def maxSentTo : ℕ := 1024

inductive Stage (valid : Bytes32 → Bool) where
  | replacing (old : ℕ)
  | reading
  /-- Before a datagram to `dst` is queued for the session found. -/
  | forwarding (session : ℕ) (dst : EndpointID valid) (datagrams : Datagrams)
  | gone
deriving DecidableEq

/-- `session`.  The frames in `send` and `replaced` are given as messages; `writing` is false when the writer
has ended, and `written` has what it wrote. -/
structure Session (valid : Bytes32 → Bool) where
  id : EndpointID valid
  version : ProtocolVersion
  stage : Stage valid
  send : List (RelayToClientMsg valid) := []
  queuedBytes : ℕ := 0
  replaced : Option (RelayToClientMsg valid) := none
  replaceOnce : Bool := false
  sentTo : List (EndpointID valid) := []
  writing : Bool := true
  written : List (RelayToClientMsg valid) := []

inductive Event (valid : Bytes32 → Bool) where
  | forwarded (session : ℕ) (src dst : EndpointID valid)
  | gone (id dst : EndpointID valid)
  /-- An endpoint is registered that was not. -/
  | arrived (id : EndpointID valid)
deriving DecidableEq

/-- `Server`, with all its sessions.  Recorded are the events, the latest first, and whether a queue was
full. -/
structure Server (valid : Bytes32 → Bool) where
  maxQueuedBytes : ℕ
  clients : EndpointID valid → Option ℕ := fun _ => none
  sessions : List (Session valid) := []
  events : List (Event valid) := []
  dropped : Bool := false

def Session.enqueue (s : Session valid) (maxQueuedBytes : ℕ) (msg : RelayToClientMsg valid) :
    Option (Session valid) :=
  let n := msg.appendTo.length
  if n > maxQueuedBytes ∨ s.queuedBytes > maxQueuedBytes - n then none
  else if s.send.length ≥ perClientSendQueueDepth then none
  else some { s with send := s.send ++ [msg], queuedBytes := s.queuedBytes + n }

/-- `noteSentTo`, on the table of a session. -/
def noteSentTo (sentTo : List (EndpointID valid)) (id : EndpointID valid) : List (EndpointID valid) :=
  if id ∈ sentTo then sentTo else if sentTo.length ≥ maxSentTo then [id] else id :: sentTo

def Session.replace (msg : RelayToClientMsg valid) (s : Session valid) : Session valid :=
  if s.replaceOnce then s else { s with replaceOnce := true, replaced := some msg }

def Session.writeReplaced (s : Session valid) : Session valid :=
  match s.writing, s.replaced with
  | true, some msg => { s with replaced := none, written := s.written ++ [msg], writing := false }
  | _, _ => s

def Session.writeNext (s : Session valid) : Session valid :=
  match s.writing, s.send with
  | true, msg :: rest => { s with
      send := rest, queuedBytes := s.queuedBytes - msg.appendTo.length, written := s.written ++ [msg] }
  | _, _ => s

namespace Server

def new (maxQueuedBytes : ℕ) : Server valid := { maxQueuedBytes }

def update (s : Server valid) (i : ℕ) (f : Session valid → Session valid) : Server valid :=
  { s with sessions := s.sessions.modify i f }

def enqueue (s : Server valid) (i : ℕ) (msg : RelayToClientMsg valid) (events : List (Event valid)) :
    Server valid :=
  match (s.sessions[i]?).bind (·.enqueue s.maxQueuedBytes msg) with
  | some sess => { s with sessions := s.sessions.set i sess, events := events ++ s.events }
  | none => { s with dropped := true }

def register (s : Server valid) (id : EndpointID valid) (version : ProtocolVersion) : Server valid :=
  { s with
    clients := Function.update s.clients id s.sessions.length
    sessions := s.sessions ++ [{ id, version, stage := ((s.clients id).map .replacing).getD .reading }]
    events := (if (s.clients id).isNone then [.arrived id] else []) ++ s.events }

def stage? (s : Server valid) (i : ℕ) : Option (Stage valid) := (s.sessions[i]?).map Session.stage

def replace (s : Server valid) (i : ℕ) : Server valid :=
  match s.stage? i with
  | some (.replacing old) =>
    (s.update old (.replace (.status statusSameEndpointIDConnected))).update i ({ · with stage := .reading })
  | _ => s

/-- `handleClientMsg`, a datagram up to its `enqueue`. -/
def handleClientMsg (s : Server valid) (i : ℕ) : ClientToRelayMsg valid → Server valid
  | .datagram dst d => match s.clients dst with
    | none => s
    | some j => s.update i fun src =>
        { src with sentTo := noteSentTo src.sentTo dst, stage := .forwarding j dst d }
  | .ping p => s.enqueue i (.pong p) []
  | .pong _ => s

def receive (s : Server valid) (i : ℕ) (content : Bytes) : Server valid :=
  match s.stage? i, parseClientToRelayMsg content with
  | some .reading, .ok msg => s.handleClientMsg i msg
  | _, _ => s

def forward (s : Server valid) (i : ℕ) : Server valid :=
  match s.sessions[i]? with
  | some src => match src.stage with
    | .forwarding j dst d => (s.enqueue j (.datagram false src.id d) [.forwarded i src.id dst]).update i
        ({ · with stage := .reading })
    | _ => s
  | none => s

def notify (id : EndpointID valid) (s : Server valid) (peer : EndpointID valid) : Server valid :=
  match s.clients peer with
  | some j => s.enqueue j (.endpointGone id) [.gone id peer]
  | none => s

def unregister (s : Server valid) (i : ℕ) : Server valid :=
  match s.sessions[i]? with
  | some sess =>
    if sess.stage ≠ .reading then s
    else if s.clients sess.id ≠ some i then s.update i ({ · with stage := .gone })
    else (sess.sentTo.foldl (notify sess.id) { s with clients := Function.update s.clients sess.id none }).update i
      ({ · with stage := .gone })
  | none => s

end Server

inductive Action (valid : Bytes32 → Bool) where
  | register (id : EndpointID valid) (version : ProtocolVersion)
  | replace (i : ℕ)
  | receive (i : ℕ) (content : Bytes)
  | forward (i : ℕ)
  | unregister (i : ℕ)
  | writeReplaced (i : ℕ)
  | writeNext (i : ℕ)

def Server.step (s : Server valid) : Action valid → Server valid
  | .register id version => s.register id version
  | .replace i => s.replace i
  | .receive i content => s.receive i content
  | .forward i => s.forward i
  | .unregister i => s.unregister i
  | .writeReplaced i => s.update i .writeReplaced
  | .writeNext i => s.update i .writeNext

end Iroh.Relay
