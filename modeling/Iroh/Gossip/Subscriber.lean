import Iroh.Common.Runs
import Mathlib

/-!
# The subscriber of a topic

Reference: `gossip/topic.go` (`sendEvent`, `closeEvents`).

Events reach the subscriber through a channel.  One that finds no room is dropped and counted, and before the
next one goes a report of how many were lost.  Report and event take a place each, so the event after a report
can be lost again.  `Dropped` is a number here: it is a `uint64`, which no run fills.
-/

namespace Iroh.Gossip

open List

variable {ε : Type}

/-- `Event`: `Lagged` with its `Dropped`, or one of the other kinds. -/
inductive Received (ε : Type) where
  | event (ev : ε)
  | lagged (dropped : ℕ)

/-- `Topic`.  Recorded are the events given to `sendEvent` before the topic closed, and what was received. -/
structure Subscriber (ε : Type) where
  capacity : ℕ
  events : List (Received ε) := []
  closed : Bool := false
  dropped : ℕ := 0
  offered : List ε := []
  received : List (Received ε) := []

namespace Subscriber

/-- The last `select` of `sendEvent`. -/
def queue (t : Subscriber ε) (ev : ε) : Subscriber ε :=
  if t.events.length < t.capacity then { t with events := t.events ++ [.event ev] }
  else { t with dropped := t.dropped + 1 }

def sendEvent (t : Subscriber ε) (ev : ε) : Subscriber ε :=
  if t.closed then t
  else
    let t := { t with offered := t.offered ++ [ev] }
    if t.dropped > 0 then
      if t.events.length < t.capacity then
        queue { t with events := t.events ++ [.lagged t.dropped], dropped := 0 } ev
      else { t with dropped := t.dropped + 1 }
    else t.queue ev

def receive (t : Subscriber ε) : Subscriber ε :=
  match t.events with
  | ev :: rest => { t with events := rest, received := t.received ++ [ev] }
  | [] => t

inductive Action (ε : Type) where
  | sendEvent (ev : ε)
  | receive
  | closeEvents

def step (t : Subscriber ε) : Action ε → Subscriber ε
  | .sendEvent ev => t.sendEvent ev
  | .receive => t.receive
  | .closeEvents => { t with closed := true }

/-! ## Accounting -/

/-- How many of the events given to `sendEvent` these stand for. -/
def count (evs : List (Received ε)) : ℕ :=
  (evs.map fun | .event _ => 1 | .lagged dropped => dropped).sum

/-- An event comes after as many as were given to `sendEvent` before it. -/
def Placed (evs : List (Received ε)) (offered : List ε) : Prop :=
  ∀ pre ev post, evs = pre ++ .event ev :: post → offered[count pre]? = some ev

/-- What is received or waits to be received accounts for the events given to `sendEvent`, up to those not
reported yet, and no report is empty. -/
structure Accounted (t : Subscriber ε) : Prop where
  placed : Placed (t.received ++ t.events) t.offered
  total : count (t.received ++ t.events) + t.dropped = t.offered.length
  losses : .lagged 0 ∉ t.received ++ t.events

variable {t : Subscriber ε} {evs : List (Received ε)} {offered : List ε}

lemma count_append (evs evs' : List (Received ε)) : count (evs ++ evs') = count evs + count evs' := by
  simp [count]

lemma Placed.snoc {r : Received ε} (h : Placed evs offered)
    (hr : ∀ ev, r = .event ev → offered[count evs]? = some ev) : Placed (evs ++ [r]) offered := by
  intro pre ev post heq
  rcases eq_nil_or_concat post with rfl | ⟨post, r', rfl⟩
  · obtain ⟨rfl, hlast⟩ := append_inj' heq rfl
    exact hr ev (by simpa using hlast)
  · rw [concat_eq_append, ← cons_append, ← append_assoc] at heq
    exact h pre ev post (append_inj' heq rfl).1

lemma Placed.offer (h : Placed evs offered) (ev : ε) : Placed evs (offered ++ [ev]) := by
  intro pre ev' post heq
  have hplace := h pre ev' post heq
  rwa [getElem?_append_left (List.getElem?_eq_some_iff.mp hplace).1]

/-- The last `select`, when what came before the event is accounted for. -/
lemma accounted_queue {ev : ε} (hplaced : Placed (t.received ++ t.events) offered)
    (htotal : count (t.received ++ t.events) = offered.length) (hlosses : .lagged 0 ∉ t.received ++ t.events)
    (hzero : t.dropped = 0) (hoffered : t.offered = offered ++ [ev]) : (t.queue ev).Accounted := by
  have hplaced' := hplaced.offer ev
  unfold queue
  split
  · constructor
    · show Placed (t.received ++ (t.events ++ [.event ev])) t.offered
      rw [← append_assoc, hoffered]
      refine hplaced'.snoc fun ev' hev => ?_
      cases hev
      simp [htotal]
    · show count (t.received ++ (t.events ++ [.event ev])) + t.dropped = t.offered.length
      rw [← append_assoc, count_append, htotal, hzero, hoffered, length_append]
      rfl
    · simpa using hlosses
  · refine ⟨hoffered ▸ hplaced', ?_, hlosses⟩
    show count (t.received ++ t.events) + (t.dropped + 1) = t.offered.length
    rw [htotal, hzero, hoffered, length_append]
    rfl

lemma accounted_step (t : Subscriber ε) (a : Action ε) (h : t.Accounted) : (t.step a).Accounted := by
  cases a with
  | closeEvents => exact ⟨h.placed, h.total, h.losses⟩
  | receive =>
    show t.receive.Accounted
    unfold receive
    split
    next ev rest hevents =>
      have hsame : t.received ++ [ev] ++ rest = t.received ++ t.events := by simp [hevents]
      constructor
      all_goals dsimp only; rw [hsame]
      exacts [h.placed, h.total, h.losses]
    · exact h
  | sendEvent ev =>
    show (t.sendEvent ev).Accounted
    unfold sendEvent
    split
    · exact h
    dsimp only
    split
    next hlost =>
      split
      · refine accounted_queue ?_ ?_ ?_ rfl rfl
        all_goals dsimp only; rw [← append_assoc]
        · exact h.placed.snoc (by simp)
        · rw [count_append, ← h.total]
          rfl
        · simpa [hlost.ne] using h.losses
      · refine ⟨h.placed.offer ev, ?_, h.losses⟩
        simp [← h.total, Nat.add_assoc]
    next hnone =>
      have hzero : t.dropped = 0 := Nat.eq_zero_of_not_pos hnone
      exact accounted_queue h.placed (by simpa [hzero] using h.total) h.losses hzero rfl

/-- **A subscriber can account for every event**, in any order of sends and receives: the events received
before one, and those reported lost, are as many as were given to `sendEvent` before it. -/
theorem events_accounted (capacity : ℕ) (as : List (Action ε)) :
    EachState step Accounted { capacity } as := by
  refine eachState_of_inv Accounted accounted_step ⟨?_, rfl, by simp⟩ as
  simp [Placed]

end Subscriber

end Iroh.Gossip
