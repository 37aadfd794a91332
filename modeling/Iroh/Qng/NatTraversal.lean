import Mathlib.Data.List.Sort
import Iroh.Common.GoMap
import Iroh.Qng.MultipathOutgoing

/-!
# NAT traversal of a QUIC connection

Reference: `internal/qng/qnt.go`, `qnt_remote_state.go`, `qnt_retry.go`.

A server tells its client with ADD_ADDRESS and REMOVE_ADDRESS frames where it may be reached.  The client
keeps these addresses in a table by their sequence numbers, beside addresses that it knows from
elsewhere.  It starts rounds, in which it asks the server with REACH_OUT frames to probe its own
addresses and probes those of the server.  A probe is a PATH_CHALLENGE from outside the paths of the
connection; an address that answers is queued as validated, and becomes the route of a new path.

Addresses are kept in canonical form, so a valid one is an `AddrPort`.  Functions that hold the mutex for
their whole body are one definition; `RemoveNATTraversalAddress` queues its frame after it has released
the mutex, and has a definition for each part.
-/

namespace Iroh.Qng

/-! ## Addresses, frames and errors -/

/-- A `netip.AddrPort` as a caller or a frame writes it.  An IPv4 address may be mapped into IPv6. -/
inductive NetipAddrPort where
  | invalid
  | plain (addr : AddrPort)
  | mapped (addr : AddrPort)
deriving DecidableEq

/-- `canonicalNATTraversalAddr`, `canonicalAddrPort`.  An address that is not valid is none. -/
def canonicalNATTraversalAddr : NetipAddrPort → Option AddrPort
  | .invalid => none
  | .plain addr => some addr
  | .mapped addr => some addr

inductive NatTraversalError where
  | notNegotiated
  | notClient
  | notEnoughAddresses
  | tooManyAddresses
deriving DecidableEq

structure AddAddressFrame where
  seqNo : ℕ
  addr : NetipAddrPort
deriving DecidableEq

structure ReachOutFrame where
  round : ℕ
  addr : NetipAddrPort
deriving DecidableEq

structure RemoveAddressFrame where
  seqNo : ℕ
deriving DecidableEq

inductive QntFrame where
  | addAddress (frame : AddAddressFrame)
  | removeAddress (frame : RemoveAddressFrame)
  | reachOut (frame : ReachOutFrame)
deriving DecidableEq

/-! ## The table of remote addresses -/

structure QntRemoteAddressState where
  max : ℕ
  addrs : GoMap ℕ AddrPort

namespace QntRemoteAddressState

def new (max : ℕ) : QntRemoteAddressState := ⟨max, .empty⟩

/-- `add`, with the address if it is new under its sequence number. -/
def add (s : QntRemoteAddressState) (frame : AddAddressFrame) :
    Except NatTraversalError (QntRemoteAddressState × Option AddrPort) :=
  match canonicalNATTraversalAddr frame.addr with
  | none => .ok (s, none)
  | some addr =>
    if addr.port = 0 then .ok (s, none)
    else
      match s.addrs.get? frame.seqNo with
      | some old =>
        if old = addr then .ok (s, none)
        else .ok ({ s with addrs := s.addrs.set frame.seqNo addr }, some addr)
      | none =>
        if s.max ≤ s.addrs.len then .error .tooManyAddresses
        else .ok ({ s with addrs := s.addrs.set frame.seqNo addr }, some addr)

/-- `remove`, with the address that was there. -/
def remove (s : QntRemoteAddressState) (frame : RemoveAddressFrame) :
    QntRemoteAddressState × Option AddrPort :=
  match s.addrs.get? frame.seqNo with
  | none => (s, none)
  | some addr => ({ s with addrs := s.addrs.delete frame.seqNo }, some addr)

/-- `addresses`: in the order of their sequence numbers. -/
def addresses (s : QntRemoteAddressState) : List AddrPort :=
  (s.addrs.keys.insertionSort (· ≤ ·)).filterMap s.addrs.get?

end QntRemoteAddressState

/-! ## The state of a connection -/

def qntMaxProbeAttempts : ℕ := 9

/-- `qntSyntheticRemoteSeqBase`: sequence numbers on the wire are smaller. -/
def qntSyntheticRemoteSeqBase : ℕ := 1 <<< 62

structure QntLocalAddress where
  addr : AddrPort
  seq : ℕ
deriving DecidableEq

/-- `qntLocalState` of a connection, with what it reads of the connection: its perspective, and the
numbers of addresses that the peer and the connection itself have advertised, zero for none.  No retry is
due if `nextRetry` is zero. -/
structure QntConn where
  server : Bool
  localAddressLimit : ℕ
  remoteAddressLimit : ℕ
  localAddrs : List QntLocalAddress
  nextLocalAddressSeqNo : ℕ
  nextRemoteAddressSeqNo : ℕ
  remote : QntRemoteAddressState
  round : ℕ
  pendingProbes : List AddrPort
  sentProbes : GoMap Token AddrPort
  probeAttempts : GoMap AddrPort ℕ
  validatedProbes : List AddrPort
  retryAttempt : ℕ
  nextRetry : ℕ
  queued : List QntFrame

namespace QntConn

def new (server : Bool) (localAddressLimit remoteAddressLimit : ℕ) : QntConn where
  server := server
  localAddressLimit := localAddressLimit
  remoteAddressLimit := remoteAddressLimit
  localAddrs := []
  nextLocalAddressSeqNo := 0
  nextRemoteAddressSeqNo := 0
  remote := .new remoteAddressLimit
  round := 0
  pendingProbes := []
  sentProbes := .empty
  probeAttempts := .empty
  validatedProbes := []
  retryAttempt := 0
  nextRetry := 0
  queued := []

/-- `qntAPINegotiated`: both sides have advertised a number of addresses. -/
def qntAPINegotiated (c : QntConn) : Bool := c.remoteAddressLimit ≠ 0 && c.localAddressLimit ≠ 0

/-! ## Local addresses -/

def queueLocalAddAddressFrame (c : QntConn) (seq : ℕ) (addr : AddrPort) : QntConn :=
  { c with queued := c.queued ++ [.addAddress ⟨seq, .plain addr⟩] }

def queueLocalRemoveAddressFrame (c : QntConn) (seq : ℕ) : QntConn :=
  { c with queued := c.queued ++ [.removeAddress ⟨seq⟩] }

def addNATTraversalAddress (c : QntConn) (addr : NetipAddrPort) : Except NatTraversalError QntConn :=
  if !c.qntAPINegotiated then .error .notNegotiated
  else
    match canonicalNATTraversalAddr addr with
    | none => .ok c
    | some addr =>
      if c.localAddrs.any fun a => a.addr = addr then .ok c
      else if c.localAddressLimit ≤ c.localAddrs.length then .error .tooManyAddresses
      else
        let seq := c.nextLocalAddressSeqNo
        let added := { c with
          nextLocalAddressSeqNo := seq + 1
          localAddrs := c.localAddrs ++ [⟨addr, seq⟩] }
        .ok (if c.server then added.queueLocalAddAddressFrame seq addr else added)

/-- `RemoveNATTraversalAddress` up to where it releases the mutex, with the address it has taken out. -/
def removeLocalAddress (c : QntConn) (addr : NetipAddrPort) :
    Except NatTraversalError (QntConn × Option QntLocalAddress) :=
  if !c.qntAPINegotiated then .error .notNegotiated
  else
    match canonicalNATTraversalAddr addr with
    | none => .ok (c, none)
    | some addr =>
      match c.localAddrs.find? fun a => a.addr = addr with
      | none => .ok (c, none)
      | some a =>
        .ok ({ c with localAddrs := c.localAddrs.eraseP fun a => a.addr = addr }, some a)

/-- The rest of `RemoveNATTraversalAddress`: the frame is queued. -/
def queueRemoval (c : QntConn) (seq : ℕ) : QntConn :=
  if c.server then c.queueLocalRemoveAddressFrame seq else c

def removeNATTraversalAddress (c : QntConn) (addr : NetipAddrPort) : Except NatTraversalError QntConn :=
  match c.removeLocalAddress addr with
  | .error e => .error e
  | .ok (c, none) => .ok c
  | .ok (c, some a) => .ok (c.queueRemoval a.seq)

def addRemoteNATTraversalAddress (c : QntConn) (addr : NetipAddrPort) :
    Except NatTraversalError QntConn :=
  if !c.qntAPINegotiated then .error .notNegotiated
  else
    match canonicalNATTraversalAddr addr with
    | none => .ok c
    | some addr =>
      if addr ∈ c.remote.addresses then .ok c
      else if c.remote.max ≤ c.remote.addrs.len then .error .tooManyAddresses
      else
        let seq := if c.nextRemoteAddressSeqNo = 0 then qntSyntheticRemoteSeqBase
          else c.nextRemoteAddressSeqNo
        .ok { c with
          nextRemoteAddressSeqNo := seq + 1
          remote := { c.remote with addrs := c.remote.addrs.set seq addr } }

/-- `addRemoteNATTraversalAddressFrame`: an ADD_ADDRESS frame. -/
def addRemoteNATTraversalAddressFrame (c : QntConn) (frame : AddAddressFrame) :
    Except NatTraversalError QntConn :=
  if !c.qntAPINegotiated then .error .notNegotiated
  else
    match c.remote.add frame with
    | .error e => .error e
    | .ok (remote, _) => .ok { c with remote := remote }

/-- `removeRemoteNATTraversalAddressFrame`: a REMOVE_ADDRESS frame. -/
def removeRemoteNATTraversalAddressFrame (c : QntConn) (frame : RemoveAddressFrame) :
    Except NatTraversalError QntConn :=
  if !c.qntAPINegotiated then .error .notNegotiated
  else .ok { c with remote := (c.remote.remove frame).1 }

/-! ## Probes -/

def qntHasSentProbeLocked (c : QntConn) (addr : AddrPort) : Bool :=
  c.sentProbes.values.any fun sent => sent = addr

def qntHasProbeLocked (c : QntConn) (addr : AddrPort) : Bool :=
  addr ∈ c.pendingProbes || addr ∈ c.validatedProbes || c.qntHasSentProbeLocked addr

def qntProbeCountLocked (c : QntConn) : ℕ :=
  c.pendingProbes.length + c.validatedProbes.length +
    c.sentProbes.values.countP fun sent => sent ∉ c.pendingProbes && sent ∉ c.validatedProbes

def qntCanRetryProbeLocked (c : QntConn) (addr : AddrPort) (remaining : ℕ) : Bool :=
  0 < remaining && addr ∉ c.pendingProbes && addr ∉ c.validatedProbes && c.qntHasSentProbeLocked addr

def qntHasRetryableProbeLocked (c : QntConn) : Bool :=
  c.probeAttempts.toList.any fun e => c.qntCanRetryProbeLocked e.1 e.2

/-- `InitiateNATTraversalRound`, with the addresses that are probed. -/
def initiateNATTraversalRound (c : QntConn) : Except NatTraversalError (QntConn × List AddrPort) :=
  if !c.qntAPINegotiated then .error .notNegotiated
  else if c.server then .error .notClient
  else
    let remote := c.remote.addresses
    if c.localAddrs.isEmpty || remote.isEmpty then .error .notEnoughAddresses
    else
      let reachOut := c.localAddrs.map fun a => ⟨c.round + 1, .plain a.addr⟩
      .ok ({ c with
        round := c.round + 1
        pendingProbes := remote
        sentProbes := .empty
        retryAttempt := 0
        nextRetry := 0
        probeAttempts := .ofList (remote.map fun addr => (addr, qntMaxProbeAttempts - 1))
        queued := c.queued ++ reachOut.map .reachOut }, remote)

def enterRound (c : QntConn) (round : ℕ) : QntConn :=
  { c with
    round := round
    pendingProbes := []
    sentProbes := .empty
    probeAttempts := .empty
    validatedProbes := []
    retryAttempt := 0
    nextRetry := 0 }

/-- `qntQueueReachOutProbe`.  A frame that is refused may still have started its round. -/
def qntQueueReachOutProbe (c : QntConn) (frame : ReachOutFrame) : QntConn × Option NatTraversalError :=
  match canonicalNATTraversalAddr frame.addr with
  | none => (c, none)
  | some addr =>
    if addr.port = 0 then (c, none)
    else if frame.round < c.round then (c, none)
    else
      let c := if c.round < frame.round then c.enterRound frame.round else c
      if c.qntHasProbeLocked addr then (c, none)
      else if c.remoteAddressLimit ≤ c.qntProbeCountLocked then (c, some .tooManyAddresses)
      else
        ({ c with
          pendingProbes := c.pendingProbes ++ [addr]
          probeAttempts := c.probeAttempts.set addr (qntMaxProbeAttempts - 1) }, none)

def handleReachOutFrame (c : QntConn) (frame : ReachOutFrame) : QntConn × Option NatTraversalError :=
  if !c.qntAPINegotiated then (c, some .notNegotiated) else c.qntQueueReachOutProbe frame

/-- `qntPopPendingProbe`, with the address that the challenge is for. -/
def qntPopPendingProbe (c : QntConn) (challenge : Token) : QntConn × Option AddrPort :=
  match c.pendingProbes with
  | [] => (c, none)
  | remote :: rest =>
    if remote.port = 0 then ({ c with pendingProbes := rest }, none)
    else
      ({ c with
        pendingProbes := rest
        sentProbes := c.sentProbes.set challenge remote }, some remote)

/-- `qntConsumePathResponse`, with the address that has answered. -/
def qntConsumePathResponse (c : QntConn) (data : Token) (source : NetipAddrPort) :
    QntConn × Option AddrPort :=
  match canonicalNATTraversalAddr source with
  | none => (c, none)
  | some source =>
    match c.sentProbes.get? data with
    | none => (c, none)
    | some remote =>
      if remote ≠ source then (c, none)
      else
        let answered := { c with
          sentProbes := c.sentProbes.delete data
          probeAttempts := c.probeAttempts.delete remote
          pendingProbes := c.pendingProbes.filter fun addr => addr ≠ remote }
        ({ answered with
          nextRetry := if answered.qntHasRetryableProbeLocked then answered.nextRetry else 0 },
          some remote)

def qntQueueValidatedProbe (c : QntConn) (addr : AddrPort) : QntConn :=
  if addr.port = 0 then c
  else if addr ∈ c.validatedProbes then c
  else { c with validatedProbes := c.validatedProbes ++ [addr] }

/-- `handleQNTPathResponseFrame`, for a connection that has negotiated NAT traversal. -/
def handleQNTPathResponseFrame (c : QntConn) (data : Token) (source : NetipAddrPort) : QntConn :=
  match c.qntConsumePathResponse data source with
  | (c, none) => c
  | (c, some addr) => c.qntQueueValidatedProbe addr

/-! ## Retries -/

/-- `qntMaxRetryInterval`, in nanoseconds. -/
def qntMaxRetryInterval : ℕ := 2 * 1000000000

def qntRetryDelay (attempt initialRTT : ℕ) : ℕ :=
  let base := initialRTT / 10
  let attempt := if 8 < attempt then 8 else attempt
  let interval := base <<< attempt - if 0 < attempt then base <<< (attempt - 1) else 0
  if qntMaxRetryInterval < interval then qntMaxRetryInterval else interval

def qntArmNextRetry (c : QntConn) (now initialRTT : ℕ) : QntConn :=
  let delay := qntRetryDelay c.retryAttempt initialRTT
  if !c.qntHasRetryableProbeLocked || delay = 0 then { c with nextRetry := 0 }
  else { c with nextRetry := now + delay }

def sendProbe (c : QntConn) (challenge : Token) (now initialRTT : ℕ) : QntConn :=
  match c.qntPopPendingProbe challenge with
  | (c, none) => c
  | (c, some _) => c.qntArmNextRetry now initialRTT

/-- The body of the loop of `qntQueueProbeRetries`, with whether a probe was queued. -/
def queueProbeRetry (c : QntConn × Bool) (addr : AddrPort) : QntConn × Bool :=
  match c.1.probeAttempts.get? addr with
  | none => c
  | some remaining =>
    if c.1.qntCanRetryProbeLocked addr remaining then
      ({ c.1 with
        probeAttempts := c.1.probeAttempts.set addr (remaining - 1)
        pendingProbes := c.1.pendingProbes ++ [addr] }, true)
    else c

/-- `qntQueueProbeRetries`, with the order in which it goes through the attempts, and whether a probe was
queued. -/
def qntQueueProbeRetries (c : QntConn) (order : List AddrPort) : QntConn × Bool :=
  match order.foldl queueProbeRetry (c, false) with
  | (c, true) => ({ c with retryAttempt := (c.retryAttempt + 1) % 256, nextRetry := 0 }, true)
  | (c, false) => (c, false)

def qntHandleRetryDeadline (c : QntConn) (now : ℕ) (order : List AddrPort) : QntConn :=
  if c.nextRetry = 0 || now < c.nextRetry then c
  else
    match c.qntQueueProbeRetries order with
    | (c, true) => c
    | (c, false) => { c with nextRetry := 0 }

/-- The part of `handleFrame` about NAT traversal.  An error closes the connection. -/
def handleFrame (c : QntConn) : QntFrame → QntConn × Option NatTraversalError
  | .addAddress frame =>
    match c.addRemoteNATTraversalAddressFrame frame with
    | .error e => (c, some e)
    | .ok c => (c, none)
  | .removeAddress frame =>
    match c.removeRemoteNATTraversalAddressFrame frame with
    | .error e => (c, some e)
    | .ok c => (c, none)
  | .reachOut frame => c.handleReachOutFrame frame

variable {c : QntConn}

lemma addRemoteFrame_eq_ok (h : c.addRemoteNATTraversalAddressFrame frame = .ok c') :
    ∃ remote, c' = { c with remote := remote } := by
  unfold addRemoteNATTraversalAddressFrame at h
  split at h
  · cases h
  · split at h
    · cases h
    · exact ⟨_, (Except.ok.inj h).symm⟩

lemma removeRemoteFrame_eq_ok (h : c.removeRemoteNATTraversalAddressFrame frame = .ok c') :
    ∃ remote, c' = { c with remote := remote } := by
  unfold removeRemoteNATTraversalAddressFrame at h
  split at h
  · cases h
  · exact ⟨_, (Except.ok.inj h).symm⟩

end QntConn

end Iroh.Qng
