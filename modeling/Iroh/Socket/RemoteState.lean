import Iroh.Qng.NatTraversal
import Iroh.Socket.PathState
import Mathlib

/-!
# The actor of a remote

Reference: `internal/socket/remote_state.go` (`RemoteStateActor`).

The actor keeps the path table of a remote, its connections, the selected path and the local candidate
addresses.  Its messages and ticks are handled one after the other on one goroutine, so a `Call` is one
step; `AddNATTraversalAddresses` comes from other goroutines and is a step of its own.

A connection is seen through its interface: the address and the paths that it reports are given by the
call, in which they are read.  What it holds as local candidates is in `held`; a connection that the
actor does not have is a new one and holds none.  Which path the selector takes, and what
`time.Now()` returns each time, is left open (`Surroundings`).
-/

namespace Iroh.Socket

open PathAddr
open Qng (AddrPort NetipAddrPort)

universe u v w

/-- `Addr`: a direct address, one behind a relay, or one of a custom transport.  Relay URLs, endpoint ids
and custom addresses are numbers. -/
inductive Addr where
  | ip (addr : AddrPort)
  | relay (url eid : ℕ)
  | custom (addr : ℕ)
deriving DecidableEq

/-- Two addresses are equal exactly when their strings are. -/
instance : PathAddr Addr Addr where
  pathKey := id
  isRelayAddr := fun addr => match addr with
    | .relay _ _ => true
    | _ => false

/-- The fields of a `PathInfo` that the actor reads. -/
structure PathInfo (α : Type u) where
  validated : Bool
  addr : α
  hasAddr : Bool
  rtt : Int64
  hasRTT : Bool
deriving DecidableEq

structure PathCandidate (α : Type u) where
  addr : α
  rtt : Int64
deriving DecidableEq

/-- The `PathEvent`s that the actor sends. -/
inductive PathEvent (α : Type u) where
  | opened (addr : α)
  | closed (addr : α)
  | selected (addr : α)
deriving DecidableEq

structure ConnState (α : Type u) where
  addr : α
  paths : List α
deriving DecidableEq

structure Observed (α : Type u) (γ : Type w) where
  rtt : γ → Int64
  paths : γ → List (PathInfo α)

/-- What surrounds an actor: the readings of the clock, the selector, and the interfaces that a
connection has. -/
structure Surroundings (α : Type u) (γ : Type w) where
  clock : ℕ → ℤ
  monotone : Monotone clock
  selector : Option α → List (PathCandidate α) → Option α
  multipathNegotiated : γ → Bool
  natTraversal : γ → Bool

lemma monotone_ticks : Monotone fun n : ℕ => (n : ℤ) := fun _ _ h => Int.ofNat_le.mpr h

/-- `RemoteStateActor`, with the number of times that it has read the clock and what its connections
hold. -/
structure RemoteStateActor (α : Type u) (κ : Type v) (γ : Type w) [DecidableEq κ] [PathAddr α κ] where
  paths : RemotePathState α κ
  conns : GoMap γ (ConnState α)
  selected : Option α
  localNAT : List AddrPort
  ticks : ℕ
  held : γ → List AddrPort
  events : List (PathEvent α)

/-! ## Lists of addresses -/

section Lists

variable {α : Type u} {κ : Type v} [DecidableEq κ] [PathAddr α κ]

def containsAddr (addrs : List α) (addr : α) : Bool := addrs.any fun a => pathKey a = pathKey addr

def appendUniqueAddr (addrs : List α) (addr : α) : List α :=
  if containsAddr addrs addr then addrs else addrs ++ [addr]

/-- `appendCandidate`; `seen` has the keys of the candidates. -/
def appendCandidate (candidates : List (PathCandidate α)) (addr : α) (rtt : Int64) :
    List (PathCandidate α) :=
  if containsAddr (candidates.map (·.addr)) addr then candidates else candidates ++ [⟨addr, rtt⟩]

def appendMultipathCandidates (candidates : List (PathCandidate α)) (paths : List (PathInfo α))
    (rtt : Int64) : List (PathCandidate α) :=
  paths.foldl (fun candidates p =>
    if p.validated && p.hasAddr then
      appendCandidate candidates p.addr (if p.hasRTT then p.rtt else rtt)
    else candidates) candidates

def canonicalNATAddr : NetipAddrPort → Option AddrPort
  | .invalid => none
  | .plain addr | .mapped addr => if addr.port = 0 then none else some addr

def appendUniqueNATAddr (addrs : List AddrPort) (addr : NetipAddrPort) : List AddrPort :=
  match canonicalNATAddr addr with
  | none => addrs
  | some addr => if addr ∈ addrs then addrs else addrs ++ [addr]

/-- The candidates that `AddNATTraversalAddresses` makes of what it is given. -/
def natCandidates (addrs : List NetipAddrPort) : List AddrPort :=
  addrs.foldl (fun candidates addr =>
    match canonicalNATAddr addr with
    | none => candidates
    | some canon => appendUniqueNATAddr candidates (.plain canon)) []

end Lists

namespace RemoteStateActor

variable {α : Type u} {κ : Type v} {γ : Type w} [DecidableEq κ] [PathAddr α κ]

def new : RemoteStateActor α κ γ where
  paths := .new
  conns := .empty
  selected := none
  localNAT := []
  ticks := 0
  held := fun _ => []
  events := []

def send (a : RemoteStateActor α κ γ) (events : List (PathEvent α)) : RemoteStateActor α κ γ :=
  { a with events := a.events ++ events }

def setOpen (env : Surroundings α γ) (a : RemoteStateActor α κ γ) (addr : α) :
    RemoteStateActor α κ γ :=
  { a with paths := a.paths.setOpenAt addr (env.clock a.ticks), ticks := a.ticks + 1 }

variable [DecidableEq γ]

def recordPath (a : RemoteStateActor α κ γ) (conn : γ) (addr : α) : RemoteStateActor α κ γ :=
  { a with conns := a.conns.rangeUpdate fun c cs =>
      if c = conn then { cs with paths := appendUniqueAddr cs.paths addr } else cs }

/-- The body of the loop of `syncMultipathPathsLocked`. -/
def syncPath (env : Surroundings α γ) (conn : γ) (r : RemoteStateActor α κ γ × List α)
    (p : PathInfo α) : RemoteStateActor α κ γ × List α :=
  if !p.validated || !p.hasAddr then r
  else
    let a := r.1.recordPath conn p.addr
    if a.paths.status p.addr = some .opened then (a, r.2)
    else (a.setOpen env p.addr, appendUniqueAddr r.2 p.addr)

def syncMultipathPathsLocked (env : Surroundings α γ) (a : RemoteStateActor α κ γ) (conn : γ)
    (paths : List (PathInfo α)) : RemoteStateActor α κ γ × List α :=
  paths.foldl (syncPath env conn) (a, [])

def multipathPathOpenLocked (a : RemoteStateActor α κ γ) (addr : α) : Bool :=
  a.conns.values.any fun cs => containsAddr cs.paths addr

/-! ## Reselection -/

/-- `connPathSnapshot`. -/
structure Snapshot (α : Type u) (γ : Type w) where
  conn : γ
  addr : α
  rtt : Int64
  paths : List (PathInfo α)

def connectionPathSnapshots (a : RemoteStateActor α κ γ) (obs : Observed α γ) : List (Snapshot α γ) :=
  a.conns.toList.map fun e => ⟨e.1, e.2.addr, obs.rtt e.1, obs.paths e.1⟩

/-- The variables of `reselect` in its loop over the snapshots. -/
structure Round (α : Type u) (κ : Type v) (γ : Type w) [DecidableEq κ] [PathAddr α κ] where
  actor : RemoteStateActor α κ γ
  candidates : List (PathCandidate α)
  opened : List α

/-- The body of the loop of `reselect`. -/
def visit (env : Surroundings α γ) (now : ℤ) (r : Round α κ γ) (snap : Snapshot α γ) : Round α κ γ :=
  match r.actor.conns.get? snap.conn with
  | none => r
  | some _ =>
    let a := { r.actor with paths := r.actor.paths.setOpenAt snap.addr now }
    let synced := a.syncMultipathPathsLocked env snap.conn snap.paths
    { actor := synced.1
      candidates := appendMultipathCandidates (appendCandidate r.candidates snap.addr snap.rtt)
        snap.paths snap.rtt
      opened := r.opened ++ synced.2 }

/-- `reselect` up to the end of its loop. -/
def refresh (env : Surroundings α γ) (a : RemoteStateActor α κ γ) (obs : Observed α γ) : Round α κ γ :=
  (a.connectionPathSnapshots obs).foldl (visit env (env.clock a.ticks))
    ⟨{ a with ticks := a.ticks + 1 }, [], []⟩

def expireIdle (env : Surroundings α γ) (a : RemoteStateActor α κ γ) (obs : Observed α γ) :
    RemotePathState α κ × List α :=
  (a.refresh env obs).actor.paths.expireIdle (env.clock a.ticks)

def reselect (env : Surroundings α γ) (a : RemoteStateActor α κ γ) (obs : Observed α γ) :
    RemoteStateActor α κ γ :=
  let r := a.refresh env obs
  let expired := a.expireIdle env obs
  let a := { r.actor with paths := expired.1.prune }
  let events := r.opened.map .opened ++ expired.2.map .closed
  match env.selector a.selected r.candidates with
  | none => a.send events
  | some selected =>
    if a.selected.any fun current => pathKey current = pathKey selected then a.send events
    else send { a with selected := some selected } (events ++ [.selected selected])

/-! ## Messages -/

/-- `AddNATTraversalAddress` of a connection. -/
def addHeld (a : RemoteStateActor α κ γ) (conn : γ) (addr : AddrPort) : RemoteStateActor α κ γ :=
  { a with held := fun c =>
      if c = conn then if addr ∈ a.held c then a.held c else a.held c ++ [addr] else a.held c }

/-- `RemoveNATTraversalAddress` of a connection. -/
def removeHeld (a : RemoteStateActor α κ γ) (conn : γ) (addr : AddrPort) : RemoteStateActor α κ γ :=
  { a with held := fun c => if c = conn then (a.held c).filter (· ≠ addr) else a.held c }

def seedNATTraversalAddresses (env : Surroundings α γ) (a : RemoteStateActor α κ γ) (conn : γ)
    (candidates : List AddrPort) : RemoteStateActor α κ γ :=
  if !env.multipathNegotiated conn then a
  else if !env.natTraversal conn then a
  else candidates.foldl (fun a addr => a.addHeld conn addr) a

/-- `a.conns[m.conn] = cs` in `handleAddConnection`. -/
def enter (a : RemoteStateActor α κ γ) (conn : γ) (addr : α) : RemoteStateActor α κ γ :=
  { a with
    held := fun c => if c = conn ∧ a.conns.contains conn = false then [] else a.held c
    conns := a.conns.set conn ⟨addr, []⟩ }

/-- The rest of the locked section of `handleAddConnection`, with the paths that were opened. -/
def openPaths (env : Surroundings α γ) (a : RemoteStateActor α κ γ) (conn : γ) (addr : α)
    (paths : List (PathInfo α)) : RemoteStateActor α κ γ × List α :=
  let synced := (a.setOpen env addr).syncMultipathPathsLocked env conn paths
  ({ synced.1 with paths := synced.1.paths.prune }, synced.2)

/-- `handleAddConnection` up to the call of `reselect`. -/
def register (env : Surroundings α γ) (a : RemoteStateActor α κ γ) (conn : γ) (addr : α)
    (paths : List (PathInfo α)) : RemoteStateActor α κ γ :=
  let opened := (a.enter conn addr).openPaths env conn addr paths
  (opened.1.seedNATTraversalAddresses env conn opened.1.localNAT).send
    (.opened addr :: opened.2.map .opened)

def handleAddConnection (env : Surroundings α γ) (a : RemoteStateActor α κ γ) (conn : γ) (addr : α)
    (paths : List (PathInfo α)) (obs : Observed α γ) : RemoteStateActor α κ γ :=
  (a.register env conn addr paths).reselect env obs

/-- `handleResolve`, whose stream of answers are later `resolved` messages. -/
def handleResolve (a : RemoteStateActor α κ γ) (addrs : List α) : RemoteStateActor α κ γ :=
  { a with paths := addrs.foldl (fun paths addr => paths.add addr) a.paths }

/-- `handleResolved` up to the call of `reselect`.  An address of no known kind is none. -/
def resolve (a : RemoteStateActor α κ γ) (addr : Option α) (provenance : String) :
    RemoteStateActor α κ γ :=
  let paths := match addr with
    | none => a.paths
    | some addr => a.paths.addWithProvenance addr provenance
  { a with paths := paths.prune }

def handleResolved (env : Surroundings α γ) (a : RemoteStateActor α κ γ) (addr : Option α)
    (provenance : String) (obs : Observed α γ) : RemoteStateActor α κ γ :=
  (a.resolve addr provenance).reselect env obs

/-- The body of the loop of `handleConnClosed` over the paths of the connection. -/
def closePath (a : RemoteStateActor α κ γ) (now : ℤ) (r : RemotePathState α κ × List α) (addr : α) :
    RemotePathState α κ × List α :=
  if a.multipathPathOpenLocked addr then r
  else (r.1.setClosed addr now, appendUniqueAddr r.2 addr)

def handleConnClosed (env : Surroundings α γ) (a : RemoteStateActor α κ γ) (conn : γ) :
    RemoteStateActor α κ γ :=
  match a.conns.get? conn with
  | none => a
  | some cs =>
    let now := env.clock a.ticks
    let a := { a with conns := a.conns.delete conn, ticks := a.ticks + 1 }
    let closed := cs.paths.foldl (a.closePath now) (a.paths.setClosed cs.addr now, [cs.addr])
    let selected := a.selected.filter fun selected =>
      !(pathKey selected = pathKey cs.addr || containsAddr closed.2 selected)
    send { a with paths := closed.1, selected } (closed.2.map .closed)

/-- The connection that `AddNATTraversalAddresses` takes: the first that it meets in the map. -/
def natTarget (env : Surroundings α γ) (a : RemoteStateActor α κ γ) : Option γ :=
  a.conns.keys.find? fun conn => env.multipathNegotiated conn && env.natTraversal conn

def updateHeld (a : RemoteStateActor α κ γ) (target : γ) (removed added : List AddrPort) :
    RemoteStateActor α κ γ :=
  added.foldl (fun a addr => a.addHeld target addr)
    (removed.foldl (fun a addr => a.removeHeld target addr) a)

def addNATTraversalAddresses (env : Surroundings α γ) (a : RemoteStateActor α κ γ)
    (addrs : List NetipAddrPort) : RemoteStateActor α κ γ :=
  let candidates := natCandidates addrs
  let removed := a.localNAT.filter fun addr => addr ∉ candidates
  let added := candidates.filter fun addr => addr ∉ a.localNAT
  match a.natTarget env with
  | none => { a with localNAT := candidates }
  | some target => updateHeld { a with localNAT := candidates } target removed added

/-- A call of the actor.  `rangeOrder` stands for the freedom of `range` loops over its maps. -/
inductive Call (α : Type u) (κ : Type v) (γ : Type w) where
  | addConnection (conn : γ) (addr : α) (paths : List (PathInfo α)) (obs : Observed α γ)
  | connClosed (conn : γ)
  | resolve (addrs : List α)
  | resolved (addr : Option α) (provenance : String) (obs : Observed α γ)
  | reselect (obs : Observed α γ)
  | addNATTraversalAddresses (addrs : List NetipAddrPort)
  | rangeOrder (paths : κ → ℕ) (conns : γ → ℕ)

def step (env : Surroundings α γ) (a : RemoteStateActor α κ γ) : Call α κ γ → RemoteStateActor α κ γ
  | .addConnection conn addr paths obs => a.handleAddConnection env conn addr paths obs
  | .connClosed conn => a.handleConnClosed env conn
  | .resolve addrs => a.handleResolve addrs
  | .resolved addr provenance obs => a.handleResolved env addr provenance obs
  | .reselect obs => a.reselect env obs
  | .addNATTraversalAddresses addrs => a.addNATTraversalAddresses env addrs
  | .rangeOrder paths conns => { a with
      paths := ⟨a.paths.paths.arrange paths, by
        intro k e h
        rw [GoMap.get?_arrange] at h
        exact a.paths.keyed k e h⟩
      conns := a.conns.arrange conns }

end RemoteStateActor

end Iroh.Socket
