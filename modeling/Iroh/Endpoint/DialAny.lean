import Iroh.Common.Runs
import Mathlib

/-!
# Racing dials

Reference: `iroh/endpoint.go` (`dialAny`, for two targets or more).

A goroutine for each target dials, waits for the handshake and sends what came of it.  The loop of `dialAny`
receives until a dial has succeeded; then a last goroutine receives the rest, and closes the connections among
it.  An action is a channel operation, or what a dial comes to.  Whether a timer or the context is ready is
left open.
-/

namespace Iroh.Endpoint

open List

variable {n : ℕ} {E : Type}

/-- Where the goroutine of a target is. -/
inductive Dial (E : Type) where
  | waiting
  | dialing
  | handshake
  | failed (e : E)
  | completed
  /-- It has sent an error. -/
  | err (e : E)
  /-- It has sent its connection. -/
  | conn
  /-- The last goroutine has received what it sent, and closed it if it was a connection. -/
  | drained

namespace Dial

/-- What was sent is in the channel, or the loop has it. -/
def listed : Dial E → Bool
  | .err _ | .conn => true
  | _ => false

/-- There is a connection that was not closed. -/
def isOpen : Dial E → Bool
  | .handshake | .completed | .conn => true
  | _ => false

def err? : Dial E → Option E
  | .err e => some e
  | _ => none

end Dial

/-- A call of `dialAny`.  `results` is the channel; `got` is what the loop has received, the latest first, and
`won` the target whose connection it returns. -/
structure DialAny (n : ℕ) (E : Type) where
  dials : Fin n → Dial E := fun _ => .waiting
  results : List (Fin n) := []
  got : List (Fin n) := []
  firstErr : Option E := none
  won : Option (Fin n) := none

namespace DialAny

inductive Action (n : ℕ) (E : Type) where
  | start (i : Fin n)
  | giveUp (i : Fin n) (e : E)
  | dialed (i : Fin n) (err : Option E)
  | handshakeComplete (i : Fin n)
  /-- The context is done or `dialAttemptTimeout` is over: the connection is closed. -/
  | abandon (i : Fin n) (e : E)
  | send (i : Fin n)
  | receive
  | receiveLate

/-- The goroutine comes to `d`, by a send if `d` is listed. -/
def put (s : DialAny n E) (i : Fin n) (d : Dial E) : DialAny n E :=
  { s with dials := Function.update s.dials i d, results := s.results ++ if d.listed then [i] else [] }

def step (s : DialAny n E) : Action n E → DialAny n E
  | .start i => match s.dials i with
    | .waiting => s.put i .dialing
    | _ => s
  | .giveUp i e => match s.dials i with
    | .waiting => if (i : ℕ) > 0 then s.put i (.failed e) else s
    | _ => s
  | .dialed i err => match s.dials i with
    | .dialing => s.put i ((err.map .failed).getD .handshake)
    | _ => s
  | .handshakeComplete i => match s.dials i with
    | .handshake => s.put i .completed
    | _ => s
  | .abandon i e => match s.dials i with
    | .handshake => s.put i (.failed e)
    | _ => s
  | .send i => match s.dials i with
    | .failed e => s.put i (.err e)
    | .completed => s.put i .conn
    | _ => s
  | .receive => match s.won, s.results with
    | none, i :: rest => match s.dials i with
      | .conn => { s with results := rest, got := i :: s.got, won := some i }
      | d => { s with results := rest, got := i :: s.got, firstErr := s.firstErr.or d.err? }
    | _, _ => s
  | .receiveLate => match s.won, s.results with
    | some _, i :: rest => { s with dials := Function.update s.dials i .drained, results := rest }
    | _, _ => s

/-- All goroutines have sent, and all that was sent was received. -/
def Over (s : DialAny n E) : Prop :=
  (∀ i, (s.dials i).listed ∨ s.dials i = .drained) ∧ s.results = []

/-! ## What a call keeps -/

/-- Each dial has put in one result, and the winner is one of them. -/
structure Ok (s : DialAny n E) : Prop where
  listed : ∀ i, i ∈ s.results ++ s.got ↔ (s.dials i).listed
  once : (s.results ++ s.got).Nodup
  won : ∀ i, s.won = some i ↔ i ∈ s.got ∧ s.dials i = .conn
  first : s.firstErr = (s.got.reverse.filterMap fun i => (s.dials i).err?).head?

variable {s : DialAny n E} {i : Fin n} {d : Dial E} {rest results : List (Fin n)}

/-- A goroutine moves that the loop has not heard of. -/
lemma Ok.update (h : s.Ok) (hi : i ∉ s.got)
    (hlisted : ∀ j, j ∈ results ++ s.got ↔ (Function.update s.dials i d j).listed)
    (honce : (results ++ s.got).Nodup) :
    Ok { s with dials := Function.update s.dials i d, results } := by
  have hkeep : ∀ j ∈ s.got, Function.update s.dials i d j = s.dials j := by
    intro j hj
    refine Function.update_of_ne ?_ ..
    rintro rfl
    exact hi hj
  refine ⟨hlisted, honce, fun j => (h.won j).trans (and_congr_right fun hj => ?_), h.first.trans ?_⟩
  · exact Eq.congr_left (hkeep j hj).symm
  · refine congrArg head? (filterMap_congr fun j hj => ?_)
    exact congrArg Dial.err? (hkeep j (mem_reverse.mp hj)).symm

lemma Ok.put (h : s.Ok) (hi : (s.dials i).listed = false) (d : Dial E) : (s.put i d).Ok := by
  have hout : i ∉ s.results ++ s.got := fun hmem => by simp [(h.listed i).mp hmem] at hi
  have hout' := hout
  simp only [mem_append, not_or] at hout'
  refine h.update hout'.2 (fun j => ?_) ?_
  · have hlisted := h.listed j
    by_cases hj : j = i
    · subst hj
      cases hd : d.listed <;> simp [hout', hd]
    · cases hd : d.listed <;> simpa [hj, hd] using hlisted
  · cases hd : d.listed with
    | false => simpa [hd] using h.once
    | true =>
      have hperm : s.results ++ [i] ++ s.got ~ i :: (s.results ++ s.got) := by simp
      exact hperm.nodup_iff.mpr (nodup_cons.mpr ⟨hout, h.once⟩)

lemma Ok.receive (h : s.Ok) : (s.step .receive).Ok := by
  unfold DialAny.step
  dsimp only
  split
  next i rest hwon hresults =>
    have hperm : rest ++ i :: s.got ~ s.results ++ s.got := by simp [hresults]
    have hnone : ∀ j ∈ s.got, s.dials j ≠ .conn := fun j hj hconn => by
      cases hwon.symm.trans ((h.won j).mpr ⟨hj, hconn⟩)
    have hlisted : ∀ j, j ∈ rest ++ i :: s.got ↔ (s.dials j).listed := fun j =>
      hperm.mem_iff.trans (h.listed j)
    have honce := hperm.nodup_iff.mpr h.once
    split
    next hconn =>
      refine ⟨hlisted, honce, fun j => ⟨?_, ?_⟩, by simp [h.first, hconn, Dial.err?]⟩
      · rintro ⟨⟩
        exact ⟨mem_cons_self, hconn⟩
      · rintro ⟨hj, hj'⟩
        rcases mem_cons.mp hj with rfl | hj
        · rfl
        · exact absurd hj' (hnone j hj)
    next hconn =>
      refine ⟨hlisted, honce, fun j => iff_of_false (by simp [hwon]) ?_, ?_⟩
      · rintro ⟨hj, hj'⟩
        rcases mem_cons.mp hj with rfl | hj
        · exact hconn hj'
        · exact hnone j hj hj'
      · cases herr : (s.dials i).err? <;> simp [h.first, herr]
  · exact h

lemma Ok.receiveLate (h : s.Ok) : (s.step .receiveLate).Ok := by
  unfold DialAny.step
  dsimp only
  split
  next i rest hwon hresults =>
    have honce := h.once
    rw [hresults, cons_append, nodup_cons] at honce
    refine h.update (fun hgot => honce.1 (mem_append_right _ hgot)) (fun j => ?_) honce.2
    have hlisted := h.listed j
    by_cases hj : j = i
    · subst hj
      simp [honce.1, Dial.listed]
    · simpa [hresults, hj] using hlisted
  · exact h

lemma Ok.step (h : s.Ok) (a : Action n E) : (s.step a).Ok := by
  cases a with
  | receive => exact h.receive
  | receiveLate => exact h.receiveLate
  | giveUp i e =>
    unfold DialAny.step
    dsimp only
    split
    next hi =>
      split
      · exact h.put (by rw [hi]; rfl) _
      · exact h
    · exact h
  | send i =>
    unfold DialAny.step
    dsimp only
    split
    next e hi => exact h.put (by rw [hi]; rfl) _
    next hi => exact h.put (by rw [hi]; rfl) _
    · exact h
  | _ i =>
    unfold DialAny.step
    dsimp only
    split
    next hi => exact h.put (by rw [hi]; rfl) _
    · exact h

/-- **Racing dials leave one connection**, whatever their interleaving: no send waits for room, the error is
the first that was received, and once all is over the only open connection is the one that is returned. -/
theorem dials_leave_one (as : List (Action n E)) :
    EachState step (fun s => s.results.length ≤ n ∧
      s.firstErr = (s.got.reverse.filterMap fun i => (s.dials i).err?).head? ∧
      (s.Over → ∀ i, (s.dials i).isOpen ↔ s.won = some i)) {} as := by
  intro pre hpre
  have h : Ok (pre.foldl step {}) := by
    refine eachState_of_inv Ok (fun _ a h => h.step a) ⟨?_, ?_, ?_, rfl⟩ as pre hpre
    all_goals simp [Dial.listed]
  refine ⟨?_, h.first, fun hover i => ?_⟩
  · simpa using (nodup_append.mp h.once).1.length_le_card
  · rw [h.won i]
    have hlisted := h.listed i
    rw [hover.2, nil_append] at hlisted
    rcases hover.1 i with hi | hi
    · rw [and_iff_right (hlisted.mpr hi)]
      cases hd : (pre.foldl step {}).dials i <;> simp [hd, Dial.isOpen, Dial.listed] at hi ⊢
    · simp [hi, Dial.isOpen]

end DialAny

end Iroh.Endpoint
