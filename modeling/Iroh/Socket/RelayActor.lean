import Iroh.Common.Bytes
import Iroh.Common.GoMap
import Mathlib.Data.List.Sort

/-!
# The relay actor

Reference: `internal/socket/relay_actor.go`, `relay/relay.go` (`Map`).

The actor has one `activeRelay` for each relay that it talks to.  Each runs on a goroutine of its own until it
is told to stop or is idle.

An `Action` is a locked section of the actor, or one stretch of the goroutine of an active relay.  Where
that goroutine is, is its `Phase`.  Active relays are entries of a list, and a pointer to one is a place
in the list.  `publishStatus` is two stretches: it reads the home under the lock, and stores the status
later.  What a dial returns, which timer fires and what is received is given by the action.  A stretch
that cannot happen does nothing.

Relay URLs, endpoint ids, errors and the contents of pings are numbers; the zero URL is `none`.  The field
`writer` is written and never read: it says which active relay has stored the watched status.
-/

namespace Iroh.Socket

/-- A `netaddr.RelayURL` that is not zero.  The order is that of the strings. -/
abbrev RelayURL := ℕ

abbrev EndpointID := ℕ

inductive RelayConnState where
  | connecting
  | connected
  | disconnected
deriving DecidableEq

structure RelayStatus where
  url : RelayURL
  state : RelayConnState
  lastError : Option ℕ
deriving DecidableEq

structure RelayRecvDatagram where
  url : RelayURL
  src : EndpointID
  datagrams : Bytes
deriving DecidableEq

inductive RelayToClientMsg where
  | datagram (remoteEndpointID : EndpointID) (datagrams : Bytes)
  | datagramBatch (remoteEndpointID : EndpointID) (datagrams : Bytes)
  | endpointGone (eid : EndpointID)
  | ping (data : ℕ)
  | pong (data : ℕ)
  | status (rateLimited : Bool)
  | health
  | restarting
deriving DecidableEq

/-- `connectedState`; `pingSentAt` is a number of nanoseconds, and `0` is the zero time. -/
structure ConnectedState where
  established : Bool
  pendingPong : Option ℕ
  pingSent : ℕ
  pingSentAt : ℤ
  awaitingPng : Bool
  lastRTT : ℤ
deriving DecidableEq

/-- The state at the start of `runConnected`. -/
def ConnectedState.new : ConnectedState := ⟨false, none, 0, 0, false, 0⟩

inductive Phase where
  /-- At the head of the loop of `run`. -/
  | head
  /-- In `publishStatus`, before it reads the home. -/
  | report (state : RelayConnState) (lastError : Option ℕ) (established : Bool)
  /-- In `publishStatus`, before it stores the status. -/
  | store (state : RelayConnState) (lastError : Option ℕ) (established : Bool)
  /-- In `dial`. -/
  | dial
  /-- In the loop of `runConnected`. -/
  | connected (st : ConnectedState)
  /-- In `run`, before the next attempt. -/
  | backoff
  | exiting
  | gone
deriving DecidableEq

/-- Where `run` goes on after a report. -/
def Phase.afterReport (state : RelayConnState) (established : Bool) : Phase :=
  match state with
  | .connecting => .dial
  | .connected => .connected .new
  | .disconnected => if established then .head else .backoff

/-- `run` has returned; before it is gone the goroutine takes its relay out of the map. -/
def Phase.leaving : Phase → Bool
  | .exiting | .gone => true
  | _ => false

/-- `activeRelay`; `lastSrc` is none until `haveSrc`. -/
structure ActiveRelay where
  url : RelayURL
  stopped : Bool
  isHome : Bool
  routes : GoSet EndpointID
  lastSrc : Option EndpointID
  phase : Phase

namespace ActiveRelay

/-- `newActiveRelay`, whose goroutine starts. -/
def new (url : RelayURL) (home : Bool) : ActiveRelay := ⟨url, false, home, .empty, none, .head⟩

def setHome (r : ActiveRelay) (home : Bool) : ActiveRelay := { r with isHome := home }

def hasRoute (r : ActiveRelay) (eid : EndpointID) : Bool := r.routes.contains eid

def noteRoute (r : ActiveRelay) (eid : EndpointID) : ActiveRelay :=
  if r.lastSrc = some eid then r
  else { r with lastSrc := some eid, routes := r.routes.set eid () }

def dropRoute (r : ActiveRelay) (eid : EndpointID) : ActiveRelay :=
  { r with routes := r.routes.delete eid }

def handleRoutes (r : ActiveRelay) : RelayToClientMsg → ActiveRelay
  | .datagram eid _ | .datagramBatch eid _ => r.noteRoute eid
  | .endpointGone eid => r.dropRoute eid
  | _ => r

end ActiveRelay

def ConnectedState.handle (st : ConnectedState) (now : ℤ) : RelayToClientMsg → ConnectedState
  | .ping data => { st with pendingPong := some data }
  | .pong data =>
    let answered := st.awaitingPng && st.pingSent = data
    { st with
      established := true
      awaitingPng := st.awaitingPng && !answered
      lastRTT := if answered ∧ st.pingSentAt ≠ 0 then now - st.pingSentAt else st.lastRTT }
  | _ => st

def relayRecvQueueDepth : ℕ := 512

/-- `RelayActor`; `relayMap` has the authentication token of each configured relay. -/
structure RelayActor where
  relayMap : GoMap RelayURL String
  home : Option RelayURL
  homeURL : Option RelayStatus
  active : GoMap RelayURL ℕ
  closed : Bool
  relays : List ActiveRelay
  recv : List RelayRecvDatagram
  relayRateLimited : ℕ
  writer : Option ℕ

namespace RelayActor

/-- `NewRelayActor`. -/
def new (relayMap : GoMap RelayURL String) : RelayActor where
  relayMap := relayMap
  home := none
  homeURL := none
  active := .empty
  closed := false
  relays := []
  recv := []
  relayRateLimited := 0
  writer := none

def urls (a : RelayActor) : List RelayURL := a.relayMap.keys.insertionSort (· ≤ ·)

def hasRelay (a : RelayActor) (url : RelayURL) : Bool := a.relayMap.contains url

/-- `a.homeURL.Set`, by an operation of the actor or by the active relay `writer`. -/
def publish (a : RelayActor) (status : Option RelayStatus) (writer : Option ℕ) : RelayActor :=
  { a with homeURL := status, writer }

def update (a : RelayActor) (i : ℕ) (f : ActiveRelay → ActiveRelay) : RelayActor :=
  { a with relays := a.relays.modify i f }

/-- `stop` of an active relay. -/
def stop (a : RelayActor) (i : ℕ) : RelayActor := a.update i fun r => { r with stopped := true }

/-- The loop that tells every active relay whether it is the home.  The key of an entry is its URL. -/
def setHomes (a : RelayActor) (home : Option RelayURL) : RelayActor :=
  { a with relays := a.relays.mapIdx fun i r =>
      if a.active.get? r.url = some i then r.setHome (some r.url = home) else r }

def start (a : RelayActor) (url : RelayURL) (home : Bool) : RelayActor :=
  { a with
    active := a.active.set url a.relays.length
    relays := a.relays ++ [.new url home] }

def ensureActiveLocked (a : RelayActor) (url : RelayURL) (home : Bool) : RelayActor :=
  match a.active.get? url with
  | some i => if home then a.update i fun r => r.setHome true else a
  | none => a.start url home

def insertRelay (a : RelayActor) (url : RelayURL) (token : String) : RelayActor :=
  if a.closed then a
  else
    let a := { a with relayMap := a.relayMap.set url token }
    if a.home = none then
      (publish { a with home := some url } (some ⟨url, .connecting, none⟩) none).ensureActiveLocked url true
    else a

/-- What `SetHomeRelay` and `RemoveRelay` do to make another relay the home. -/
def elect (a : RelayActor) (url : RelayURL) : RelayActor :=
  let a := publish { a with home := some url } (some ⟨url, .connecting, none⟩) none
  (a.setHomes (some url)).ensureActiveLocked url true

/-- What `RemoveRelay` does with a configured relay, up to the check whether it is the home. -/
def dropRelay (a : RelayActor) (url : RelayURL) : RelayActor :=
  let a := { a with relayMap := a.relayMap.delete url }
  match a.active.get? url with
  | some i => a.stop i
  | none => a

def removeRelay (a : RelayActor) (url : RelayURL) : RelayActor :=
  if a.closed ∨ a.relayMap.contains url = false then a
  else
    let a := a.dropRelay url
    if a.home ≠ some url then a
    else
      match a.urls.head? with
      | none => publish { a with home := none } none none
      | some next => a.elect next

def setHomeRelay (a : RelayActor) (url : Option RelayURL) : RelayActor :=
  if a.closed then a
  else
    match url with
    | none => (publish { a with home := none } none none).setHomes none
    | some url => if a.home = some url then a else a.elect url

def routeForEndpointLocked (a : RelayActor) (eid : EndpointID) : Option ℕ :=
  a.active.values.find? fun i => (a.relays[i]?).any fun r => r.hasRoute eid

/-- `dispatch`, up to the queue of the active relay. -/
def dispatch (a : RelayActor) (url : RelayURL) (eid : EndpointID) : RelayActor :=
  if a.closed then a
  else if a.active.contains url then a
  else if (a.routeForEndpointLocked eid).isSome then a
  else a.ensureActiveLocked url (a.home = some url)

/-! ## The goroutine of an active relay -/

inductive RelayEvent where
  | next
  | stop
  | idle
  | dialed (err : Option ℕ)
  | frame (msg : RelayToClientMsg) (now : ℤ)
  | sentPing (data : ℕ) (now : ℤ)
  | sentPong
  /-- The loop of `runConnected` ends with an error. -/
  | failed (err : ℕ)
  /-- The receive loop has ended with `context.Canceled`. -/
  | canceled
  | backoffOver
deriving DecidableEq

/-- The phase after an event.  `home` says whether the relay's URL is the home at that time. -/
def nextPhase (r : ActiveRelay) (home : Bool) : RelayEvent → Phase := fun e =>
  match r.phase, e with
  | .head, .next => if r.stopped then .exiting else .report .connecting none false
  | .report state err established, .next =>
    if home then .store state err established else .afterReport state established
  | .store state _ established, .next => .afterReport state established
  | .dial, .stop => if r.stopped then .exiting else .dial
  | .dial, .idle => if r.isHome then .dial else .exiting
  | .dial, .dialed none => .report .connected none false
  | .dial, .dialed (some err) => .report .disconnected (some err) false
  | .connected st, .frame msg now => .connected (st.handle now msg)
  | .connected st, .sentPing data now =>
    .connected { st with pingSent := data, pingSentAt := now, awaitingPng := true }
  | .connected st, .sentPong => .connected { st with pendingPong := none }
  | .connected st, .stop => if r.stopped then .exiting else .connected st
  | .connected st, .idle => if r.isHome then .connected st else .exiting
  | .connected _, .canceled => .exiting
  | .connected st, .failed err => .report .disconnected (some err) st.established
  | .backoff, .stop => if r.stopped then .exiting else .backoff
  | .backoff, .backoffOver => .head
  | .exiting, .next => .gone
  | phase, _ => phase

def nextRelay (r : ActiveRelay) (home : Bool) (e : RelayEvent) : ActiveRelay :=
  let phase := nextPhase r home e
  match r.phase, e with
  | .connected _, .frame msg _ => { r.handleRoutes msg with phase }
  | _, _ => { r with phase }

def stored (r : ActiveRelay) : RelayEvent → Option RelayStatus := fun e =>
  match r.phase, e with
  | .store state err _, .next => some ⟨r.url, state, err⟩
  | _, _ => none

def receive (recv : List RelayRecvDatagram) (r : ActiveRelay) (e : RelayEvent) :
    List RelayRecvDatagram :=
  match r.phase, e with
  | .connected _, .frame (.datagram eid d) _ | .connected _, .frame (.datagramBatch eid d) _ =>
    if recv.length < relayRecvQueueDepth then recv ++ [⟨r.url, eid, d⟩] else recv
  | _, _ => recv

def limited (r : ActiveRelay) (e : RelayEvent) : Bool :=
  match r.phase, e with
  | .connected _, .frame (.status rateLimited) _ => rateLimited
  | _, _ => false

/-- An event of the goroutine of an active relay.  At its end the relay takes itself out of the map. -/
def relayEvent (a : RelayActor) (i : ℕ) (e : RelayEvent) : RelayActor :=
  match a.relays[i]? with
  | none => a
  | some r => { a with
      relays := a.relays.set i (nextRelay r (a.home = some r.url) e)
      homeURL := (stored r e).or a.homeURL
      writer := if (stored r e).isSome then some i else a.writer
      active := if r.phase = .exiting ∧ e = .next ∧ a.active.get? r.url = some i then
        a.active.delete r.url else a.active
      recv := receive a.recv r e
      relayRateLimited := a.relayRateLimited + if limited r e then 1 else 0 }

/-! ## Runs -/

inductive Operation where
  | insertRelay (url : RelayURL) (token : String)
  | removeRelay (url : RelayURL)
  | setHomeRelay (url : Option RelayURL)
  | dispatch (url : RelayURL) (eid : EndpointID)
  /-- The locked section of `shutdown`. -/
  | shutdown
  /-- `shutdown` stops one of the active relays. -/
  | shutdownStop (i : ℕ)
  | received
deriving DecidableEq

inductive Action where
  | op (o : Operation)
  | relay (i : ℕ) (e : RelayEvent)
deriving DecidableEq

def operate (a : RelayActor) : Operation → RelayActor
  | .insertRelay url token => a.insertRelay url token
  | .removeRelay url => a.removeRelay url
  | .setHomeRelay url => a.setHomeRelay url
  | .dispatch url eid => a.dispatch url eid
  | .shutdown => { a with closed := true }
  | .shutdownStop i => if a.closed then a.stop i else a
  | .received => { a with recv := a.recv.tail }

def step (a : RelayActor) : Action → RelayActor
  | .op o => a.operate o
  | .relay i e => a.relayEvent i e

end RelayActor

end Iroh.Socket
