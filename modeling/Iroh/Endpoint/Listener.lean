import Iroh.Common.Runs

/-!
# Stream listeners

Reference: `iroh/listener.go` (`ListenStreams`, `Close`, `run`), `iroh/endpoint.go` (`acquireAcceptOwner`,
`releaseAcceptOwner`, `setALPNs`, `acceptIncoming`).

A `StreamListener` owns the accept loop of its endpoint until its `onClose` has run.  One `sync.Once` is for
both of its ends, and only `Close` calls `onClose` inside it: a loop that comes to its end first, as it does
on an endpoint without ALPNs, takes the once and leaves the ownership where it is.

An action is a locked section, or a stretch between two of them.  An iteration of the loop that pulls a
connection, or fails for a reason of its peer, changes nothing here.
-/

namespace Iroh.Endpoint

open List

inductive LoopOwner where
  | none
  | accept
  | incoming
  | listenStreams
  | router
deriving DecidableEq

inductive EndReason where
  | canceled
  | endpointClosed
  | noALPNs
deriving DecidableEq

/-- Where `run` is: in its loop, in its deferred function, at its end. -/
inductive RunLoop where
  | accepting
  | ending (reason : EndReason)
  | ended (reason : EndReason)
deriving DecidableEq

/-- `closeOnce`: not used, used by a `Close` that has not called `onClose` yet, by one that has, or by
`run`. -/
inductive CloseOnce where
  | unused
  | closing
  | closed
  | ended
deriving DecidableEq

/-- A `StreamListener` of `ListenStreams`, with how often `onClose` was called and whether a `Close` has
returned. -/
structure StreamListener where
  canceled : Bool
  closeOnce : CloseOnce
  loop : RunLoop
  released : ℕ
  closeReturned : Bool
deriving DecidableEq

/-- The parts of an `Endpoint` that say who may accept, and its stream listeners.  `listening` says that
`e.listener` is not nil. -/
structure Listening where
  closed : Bool
  listening : Bool
  acceptOwner : LoopOwner
  listeners : List StreamListener
deriving DecidableEq

namespace Listening

def new (listening : Bool) : Listening := ⟨false, listening, .none, []⟩

/-- `acquireAcceptOwner`: whether the owner has the loop now. -/
def acquireAcceptOwner (e : Listening) (owner : LoopOwner) : Option Listening :=
  if e.closed ∨ e.acceptOwner ≠ .none then none else some { e with acceptOwner := owner }

def releaseAcceptOwner (e : Listening) (owner : LoopOwner) : Listening :=
  if e.acceptOwner = owner then { e with acceptOwner := .none } else e

/-- `setALPNs`, for an owner, when the old listener can be closed; `started` says that the new one was. -/
def setALPNs (e : Listening) (allowedOwner : LoopOwner) (started : Bool) : Listening :=
  if e.closed ∨ (e.acceptOwner ≠ .none ∧ e.acceptOwner ≠ allowedOwner) then e
  else { e with listening := started }

def listenStreams (e : Listening) : Listening :=
  match e.acquireAcceptOwner .listenStreams with
  | none => e
  | some e => { e with listeners := e.listeners ++ [⟨false, .unused, .accepting, 0, false⟩] }

/-- The loop of `run` ends, if it has reason to. -/
def loopEnds (e : Listening) (l : StreamListener) : StreamListener :=
  if l.loop ≠ .accepting then l
  else if e.closed then { l with loop := .ending .endpointClosed }
  else if ¬e.listening then { l with loop := .ending .noALPNs }
  else if l.canceled then { l with loop := .ending .canceled }
  else l

/-- The deferred function of `run`, which waits for a `Close` that is in the once. -/
def runReturns (l : StreamListener) : StreamListener :=
  match l.loop, l.closeOnce with
  | .ending _, .closing => l
  | .ending r, .unused => { l with canceled := true, closeOnce := .ended, loop := .ended r }
  | .ending r, _ => { l with loop := .ended r }
  | _, _ => l

/-- `Close`, up to `onClose`; it returns if the once was used before. -/
def closeCalled (l : StreamListener) : StreamListener :=
  match l.closeOnce with
  | .unused => { l with canceled := true, closeOnce := .closing }
  | .closing => l
  | _ => { l with closeReturned := true }

/-- The rest of the `Close` that is in the once. -/
def onClose (e : Listening) (i : ℕ) : Listening :=
  if (e.listeners[i]?).any (·.closeOnce = .closing) then
    { e.releaseAcceptOwner .listenStreams with
      listeners := e.listeners.modify i fun l =>
        { l with closeOnce := .closed, released := l.released + 1, closeReturned := true } }
  else e

/-- What may happen; `acquire` and `release` are those of `Accept`, `AcceptIncoming` and a router. -/
inductive Action where
  | acquire (owner : LoopOwner) (other : owner ≠ .listenStreams)
  | release (owner : LoopOwner) (other : owner ≠ .listenStreams)
  | setALPNs (allowedOwner : LoopOwner) (started : Bool)
  | shutdown
  | listenStreams
  | loopEnds (i : ℕ)
  | runReturns (i : ℕ)
  | close (i : ℕ)
  | onClose (i : ℕ)

def step (e : Listening) : Action → Listening
  | .acquire owner _ => (e.acquireAcceptOwner owner).getD e
  | .release owner _ => e.releaseAcceptOwner owner
  | .setALPNs allowedOwner started => e.setALPNs allowedOwner started
  | .shutdown => { e with closed := true }
  | .listenStreams => e.listenStreams
  | .loopEnds i => { e with listeners := e.listeners.modify i e.loopEnds }
  | .runReturns i => { e with listeners := e.listeners.modify i runReturns }
  | .close i => { e with listeners := e.listeners.modify i closeCalled }
  | .onClose i => e.onClose i

/-- The owner of the accept loop is the `i`-th listener: the last that `ListenStreams` acquired it for. -/
def Owns (e : Listening) (i : ℕ) : Prop :=
  e.acceptOwner = .listenStreams ∧ i + 1 = e.listeners.length

/-- While the endpoint is open, a closed listener does not own the loop; no listener releases it twice. -/
structure GivenBack (e : Listening) : Prop where
  back : e.closed = false → ∀ i l, e.listeners[i]? = some l → l.closeReturned = true → ¬e.Owns i
  once : ∀ l ∈ e.listeners, l.released ≤ 1

/-! ## The life of a listener -/

/-- A listener owns its place until it is closed, which releases it once. -/
structure ListenerOk (closed : Bool) (owns : Prop) (l : StreamListener) : Prop where
  owned : owns ↔ l.closeOnce ≠ .closed
  released : l.released = if l.closeOnce = .closed then 1 else 0
  returned : l.closeReturned = true → l.closeOnce = .closed ∨ l.closeOnce = .ended
  canceled : l.canceled = true → l.closeOnce ≠ .unused
  loopCanceled : l.loop = .ending .canceled → l.closeOnce ≠ .unused
  loopClosed : l.loop = .ending .endpointClosed → closed = true
  ended : l.closeOnce = .ended → ∃ r, l.loop = .ended r ∧ (r = .noALPNs ∨ closed = true)

def Ok (e : Listening) : Prop := ∀ i l, e.listeners[i]? = some l → ListenerOk e.closed (e.Owns i) l

variable {e : Listening}

lemma Ok.modify (h : Ok e) (i : ℕ)
    (hf : ∀ l, ListenerOk e.closed (e.Owns i) l → ListenerOk e.closed (e.Owns i) (f l)) :
    Ok { e with listeners := e.listeners.modify i f } := by
  intro j l hl
  rw [getElem?_modify, Option.map_eq_map, Option.map_eq_some_iff] at hl
  obtain ⟨l', hl', rfl⟩ := hl
  have hok := h j l' hl'
  simp only [Owns, length_modify] at hok ⊢
  split
  next hij => exact hij ▸ hf l' (hij ▸ hok)
  · exact hok

lemma Ok.other (h : Ok e) (hl : e'.listeners = e.listeners)
    (hclosed : e.closed = true → e'.closed = true)
    (howner : e'.acceptOwner = .listenStreams ↔ e.acceptOwner = .listenStreams) : Ok e' := by
  intro i l hi
  obtain ⟨owned, released, returned, canceled, hcanceled, hloop, hended⟩ := h i l (hl ▸ hi)
  refine ⟨?_, released, returned, canceled, hcanceled, fun h => hclosed (hloop h), fun h => ?_⟩
  · rw [← owned, Owns, Owns, howner, hl]
  · obtain ⟨r, hr, hwhy⟩ := hended h
    exact ⟨r, hr, hwhy.imp_right hclosed⟩

lemma Ok.listenStreams (h : Ok e) : Ok e.listenStreams := by
  unfold Listening.listenStreams acquireAcceptOwner
  split
  · exact h
  rename_i heq
  split at heq
  · cases heq
  rename_i hfree
  cases heq
  rw [not_or, not_not] at hfree
  intro i l hi
  rcases Nat.lt_trichotomy i e.listeners.length with hlt | rfl | hgt
  · -- an older listener does not own a free loop
    have hold := h i l (by rwa [getElem?_append_left hlt] at hi)
    have hnot : ¬e.Owns i := fun howns => LoopOwner.noConfusion (hfree.2.symm.trans howns.1)
    refine { hold with owned := iff_of_false ?_ (hold.owned.not.mp hnot) }
    simp only [Owns, length_append, length_singleton]
    omega
  · simp only [getElem?_concat_length, Option.some.injEq] at hi
    subst hi
    constructor <;> simp [Owns]
  · rw [getElem?_eq_none (by simpa using Nat.succ_le_of_lt hgt)] at hi
    cases hi

lemma Ok.onClose (h : Ok e) (i : ℕ) : Ok (e.onClose i) := by
  unfold Listening.onClose
  split
  swap
  · exact h
  rename_i hclosing
  obtain ⟨l, hl, hl'⟩ := (Option.any_eq_true _ _).mp hclosing
  have howns := (h i l hl).owned.mpr (by simp [of_decide_eq_true hl'])
  rw [releaseAcceptOwner, if_pos howns.1]
  intro j l' hj
  rw [getElem?_modify, Option.map_eq_map, Option.map_eq_some_iff] at hj
  obtain ⟨k, hk, rfl⟩ := hj
  have hok := h j k hk
  split
  next hij =>
    obtain rfl := Option.some.inj (hl.symm.trans (hij ▸ hk))
    have := hok.released
    constructor <;> simp_all [Owns]
    exact hok.loopClosed
  · have hnot : ¬e.Owns j := fun hj => ‹¬i = j› (Nat.succ_injective (howns.2.trans hj.2.symm))
    exact { hok with owned := iff_of_false (fun h => LoopOwner.noConfusion h.1) (hok.owned.not.mp hnot) }

lemma ok_step (a : Action) (h : Ok e) : Ok (step e a) := by
  cases a with
  | acquire owner other =>
    refine h.other ?_ ?_ ?_ <;> simp only [step, acquireAcceptOwner] <;> grind
  | release owner other =>
    refine h.other ?_ ?_ ?_ <;> simp only [step, releaseAcceptOwner] <;> grind
  | setALPNs allowedOwner started =>
    refine h.other ?_ ?_ ?_ <;> simp [step, Listening.setALPNs] <;> grind
  | shutdown => exact h.other rfl (fun _ => rfl) Iff.rfl
  | listenStreams => exact h.listenStreams
  | loopEnds i =>
    refine h.modify i fun l hl => ?_
    obtain ⟨owned, released, returned, canceled, hcanceled, hloop, hended⟩ := hl
    unfold Listening.loopEnds
    constructor <;> grind
  | runReturns i =>
    refine h.modify i fun l hl => ?_
    obtain ⟨owned, released, returned, canceled, hcanceled, hloop, hended⟩ := hl
    unfold Listening.runReturns
    constructor <;> grind [EndReason]
  | close i =>
    refine h.modify i fun l hl => ?_
    obtain ⟨owned, released, returned, canceled, hcanceled, hloop, hended⟩ := hl
    unfold closeCalled
    constructor <;> grind [CloseOnce]
  | onClose i => exact h.onClose i

/-- **A closed listener has given the loop back exactly when its own loop had not ended before**, for want
of ALPNs, in every state of every run. -/
theorem givenBack_iff_closed_first (listening : Bool) (as : List Action) :
    GivenBack (as.foldl step (new listening)) ↔ ((as.foldl step (new listening)).closed = false →
        ∀ l ∈ (as.foldl step (new listening)).listeners, l.closeReturned = true →
          ¬(l.closeOnce = .ended ∧ l.loop = .ended .noALPNs)) := by
  have hok : Ok (as.foldl step (new listening)) :=
    (eachState_of_inv Ok (fun _ a => ok_step a) (fun i l h => by simp [new] at h) as) as prefix_rfl
  generalize as.foldl step (new listening) = e at hok
  constructor
  · rintro ⟨hback, -⟩ hopen l hl hret ⟨hended, -⟩
    obtain ⟨i, hi⟩ := getElem?_of_mem hl
    exact hback hopen i l hi hret ((hok i l hi).owned.mpr (by simp [hended]))
  · intro h
    refine ⟨fun hopen i l hi hret howns => ?_, fun l hl => ?_⟩
    · obtain hc | hended := (hok i l hi).returned hret
      · exact (hok i l hi).owned.mp howns hc
      · obtain ⟨r, hr, rfl | hclosed⟩ := (hok i l hi).ended hended
        · exact h hopen l (mem_of_getElem? hi) hret ⟨hended, hr⟩
        · simp [hopen] at hclosed
    · obtain ⟨i, hi⟩ := getElem?_of_mem hl
      rw [(hok i l hi).released]
      split <;> omega

/-- Without ALPNs the loop ends at once.  The listener is closed, and nobody can accept. -/
theorem owner_kept_after_close :
    let e := [.listenStreams, .loopEnds 0, .runReturns 0, .close 0].foldl step (new false)
    e.listeners = [⟨true, .ended, .ended .noALPNs, 0, true⟩] ∧ ¬GivenBack e ∧
      e.acquireAcceptOwner .router = none ∧ e.setALPNs .none true = e := by
  refine ⟨rfl, fun h => h.back rfl 0 _ rfl rfl ⟨rfl, rfl⟩, rfl, rfl⟩

end Listening

end Iroh.Endpoint
