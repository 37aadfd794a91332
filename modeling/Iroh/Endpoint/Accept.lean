import Mathlib.Data.List.Basic

/-!
# Accepting connections

Reference: `iroh/endpoint.go` (`accept`, `finishAccept`, `popAccepted`, `Shutdown`, `acquireAcceptOwner`,
`releaseAcceptOwner`), `iroh/admit.go` (`admissions`).

A call of `accept` waits, and a goroutine of its own pulls connections and starts a `finishAccept` for each.
Outcomes go to a list from which `accept` pops.

An action is a locked section, or a stretch between channel operations.  A connection is the place of its
`finishAccept` among all of them.  What the handshake and the hooks come to, which channel a `select` takes
and when a context is cancelled is given by the action.  A stretch that cannot happen does nothing.
-/

namespace Iroh.Endpoint

/-- What `finishAccepting` returns: a connection, an error, or `ErrConnClosedDuringHandshake`. -/
inductive Finish where
  | conn
  | err
  | lost
deriving DecidableEq

inductive FinishStage where
  | spawned
  | admitted
  | finished (f : Finish)
  /-- Its admission is released, and it has something to report. -/
  | released (f : Finish)
  | done (f : Finish)
deriving DecidableEq

structure Finisher where
  gen : ℕ
  abandoned : Bool
  stage : FinishStage
deriving DecidableEq

/-- `acceptResult`: the connection of a `finishAccept`, or an error. -/
inductive Outcome where
  | conn (i : ℕ)
  | err
deriving DecidableEq

def Outcome.conn? : Outcome → Option ℕ
  | .conn i => some i
  | .err => none

def Finish.outcome (f : Finish) (i : ℕ) : Outcome := if f = .conn then .conn i else .err

inductive Pull where
  | unstarted
  /-- Before `hasAccepted`. -/
  | checking
  /-- In `acceptIncoming`. -/
  | pulling
  | sending
  | ended (err : Bool)
deriving DecidableEq

inductive Main where
  | starting
  | popping
  /-- In the `select`. -/
  | waiting
  | tookErr (err : Bool)
  | returning
deriving DecidableEq

structure AcceptCall where
  gen : ℕ
  canceled : Bool
  main : Main
  pull : Pull
deriving DecidableEq

/-- `acceptOwner`: none, `Accept` or another loop. -/
inductive AcceptOwner where
  | none
  | accept
  | other
deriving DecidableEq

/-- The parts of an `Endpoint` for accepting, with the `finishAccept` goroutines.  The `admitting` of other
loops are `none`.  What `accept` has returned (`none` is a nil connection and a nil error) and which
connections were closed is recorded. -/
structure Accepting where
  maxAdmitting : ℕ
  closed : Bool
  serveStopped : Bool
  acceptOwner : AcceptOwner
  acceptGen : ℕ
  accepted : List Outcome
  acceptReady : Bool
  admitting : List (Option ℕ)
  call : Option AcceptCall
  finishers : List Finisher
  returned : List (Option Outcome)
  closedConns : List ℕ
deriving DecidableEq

namespace Accepting

def new (maxAdmitting : ℕ) : Accepting where
  maxAdmitting := maxAdmitting
  closed := false
  serveStopped := false
  acceptOwner := .none
  acceptGen := 0
  accepted := []
  acceptReady := false
  admitting := []
  call := none
  finishers := []
  returned := []
  closedConns := []

def closeAccepted (s : Accepting) : Accepting :=
  { s with accepted := [], closedConns := s.accepted.filterMap Outcome.conn? ++ s.closedConns }

/-- `acquireAcceptOwner` of another loop. -/
def takeOver (s : Accepting) : Accepting :=
  if s.closed ∨ s.acceptOwner ≠ .none then s
  else { s.closeAccepted with acceptOwner := .other, acceptGen := s.acceptGen + 1 }

/-- `Shutdown`, up to the end of its locked section and the connections it closes. -/
def shutdown (s : Accepting) : Accepting :=
  if s.closed then s else { s.closeAccepted with closed := true }

/-! ## `finishAccept` -/

def stage? (s : Accepting) (i : ℕ) : Option FinishStage := (s.finishers[i]?).map (·.stage)

def setStage (s : Accepting) (i : ℕ) (stage : FinishStage) : Accepting :=
  { s with finishers := s.finishers.modify i fun f => { f with stage } }

def abandon (s : Accepting) : Option ℕ → Accepting
  | some i => { s with finishers := s.finishers.modify i fun f => { f with abandoned := true } }
  | none => s

/-- `add`: the oldest admission is abandoned if there are too many. -/
def add (s : Accepting) (i : Option ℕ) : Accepting :=
  match s.admitting with
  | oldest :: rest =>
    if s.maxAdmitting ≤ s.admitting.length then abandon { s with admitting := rest ++ [i] } oldest
    else { s with admitting := s.admitting ++ [i] }
  | [] => { s with admitting := [i] }

def admitConn (s : Accepting) (i : ℕ) : Accepting :=
  if s.stage? i = some .spawned then (s.add (some i)).setStage i .admitted else s

def drop (s : Accepting) (i : ℕ) (f : Finish) : Accepting :=
  setStage { s with closedConns := (f.outcome i).conn?.toList ++ s.closedConns } i (.done f)

/-- The outcome is kept, and `accept` is woken. -/
def keep (s : Accepting) (i : ℕ) (f : Finish) : Accepting :=
  setStage { s with accepted := s.accepted ++ [f.outcome i], acceptReady := true } i (.done f)

def release (s : Accepting) (i : ℕ) : Accepting :=
  match s.finishers[i]? with
  | some ⟨_, abandoned, .finished f⟩ =>
    if abandoned ∨ f = .lost ∨ s.serveStopped then drop { s with admitting := s.admitting.erase (some i) } i f
    else setStage { s with admitting := s.admitting.erase (some i) } i (.released f)
  | _ => s

def append (s : Accepting) (i : ℕ) : Accepting :=
  match s.finishers[i]? with
  | some ⟨gen, _, .released f⟩ => if s.closed ∨ s.acceptGen ≠ gen then s.drop i f else s.keep i f
  | _ => s

/-! ## `accept` -/

/-- `Accept` acquires the ownership and calls `accept`. -/
def start (s : Accepting) : Accepting :=
  if s.closed ∨ s.acceptOwner ≠ .none then s
  else { s with acceptOwner := .accept, call := some ⟨s.acceptGen, false, .starting, .unstarted⟩ }

/-- `popAccepted`, when it finds an outcome: that is returned. -/
def popped (s : Accepting) (c : AcceptCall) (r : Outcome) (rest : List Outcome) : Accepting :=
  { s with accepted := rest, returned := s.returned ++ [some r], call := some { c with main := .returning } }

def goOn (s : Accepting) (c : AcceptCall) : Accepting :=
  match c.main, s.accepted with
  | .starting, [] => { s with call := some ⟨s.acceptGen, c.canceled, .popping, .checking⟩ }
  | .starting, r :: rest => s.popped { c with pull := .ended true } r rest
  | .popping, [] => { s with call := some { c with main := .waiting } }
  | .popping, r :: rest => s.popped c r rest
  | .tookErr err, [] => { s with
      returned := s.returned ++ [if err then some .err else none]
      call := some { c with main := .returning } }
  | .tookErr _, r :: rest => s.popped c r rest
  | .returning, _ =>
    match c.pull with
    | .ended _ => { s with call := none, acceptOwner := .none }
    | _ => s
  | .waiting, _ => s

def pullOn (s : Accepting) (c : AcceptCall) : Accepting :=
  match c.pull with
  | .checking => { s with call := some { c with pull := if s.accepted = [] then .pulling else .sending } }
  | .sending => { s with call := some { c with pull := .ended (c.canceled || c.main = .returning) } }
  | _ => s

def pulled (s : Accepting) (c : AcceptCall) (err : Bool) : Accepting :=
  match c.pull, err with
  | .pulling, true => { s with call := some { c with pull := .ended true } }
  | .pulling, false => { s with
      finishers := s.finishers ++ [⟨c.gen, false, .spawned⟩]
      call := some { c with pull := .checking } }
  | _, _ => s

inductive CallAction where
  | main
  /-- The `select` takes `acceptReady`. -/
  | woken
  /-- The `select` takes what the pulling goroutine has sent. -/
  | takeErr
  /-- The `select` finds the context cancelled. -/
  | giveUp
  | cancel
  | pull
  | pulled (err : Bool)
deriving DecidableEq

def callStep (s : Accepting) (c : AcceptCall) : CallAction → Accepting
  | .main => s.goOn c
  | .woken =>
    if c.main = .waiting ∧ s.acceptReady then
      { s with acceptReady := false, call := some { c with main := .popping } }
    else s
  | .takeErr =>
    match c.main, c.pull with
    | .waiting, .ended err => { s with call := some { c with main := .tookErr err } }
    | _, _ => s
  | .giveUp =>
    if c.main = .waiting ∧ c.canceled then
      { s with returned := s.returned ++ [some .err], call := some { c with main := .returning } }
    else s
  | .cancel => { s with call := some { c with canceled := true } }
  | .pull => s.pullOn c
  | .pulled err => s.pulled c err

inductive Action where
  | start
  | call (a : CallAction)
  | admitConn (i : ℕ)
  | finish (i : ℕ) (f : Finish)
  | release (i : ℕ)
  | append (i : ℕ)
  | takeOver
  /-- `releaseAcceptOwner` of another loop. -/
  | handOver
  | otherAdmit
  | otherRelease
  | shutdown
  /-- `Shutdown` stops the context of the handshakes. -/
  | serveStop
deriving DecidableEq

def step (s : Accepting) : Action → Accepting
  | .start => s.start
  | .call a =>
    match s.call with
    | some c => s.callStep c a
    | none => s
  | .admitConn i => s.admitConn i
  | .finish i f => if s.stage? i = some .admitted then s.setStage i (.finished f) else s
  | .release i => s.release i
  | .append i => s.append i
  | .takeOver => s.takeOver
  | .handOver => if s.acceptOwner = .other then { s with acceptOwner := .none } else s
  | .otherAdmit => s.add none
  | .otherRelease => { s with admitting := s.admitting.erase none }
  | .shutdown => s.shutdown
  | .serveStop => if s.closed then { s with serveStopped := true } else s

end Accepting

end Iroh.Endpoint
