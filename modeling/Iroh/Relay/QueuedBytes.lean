import Iroh.Relay.Server
import Mathlib

/-!
# The bytes queued for a session

Reference: `relayserver/server.go` (`enqueue`, `writeLoop`).

Calls of `enqueue` run beside each other and beside the writer of the session.  An action is one operation on
`queuedBytes` or on the channel `send`; a frame is its length.  `Session.enqueue` is a call that runs alone.
-/

namespace Iroh.Relay

open List

/-- Where a call of `enqueue` is with its frame of `n` bytes. -/
inductive EnqueueCall where
  /-- Before its compare-and-swap, with a number that leaves room. -/
  | loaded (n : ℕ) (queued : ℤ)
  /-- Before its `select`. -/
  | reserved (n : ℕ)
  /-- The channel was full. -/
  | refused (n : ℕ)

/-- What a call has added to `queuedBytes`, and not to `send`. -/
def EnqueueCall.held : EnqueueCall → ℕ
  | .loaded _ _ => 0
  | .reserved n => n
  | .refused n => n

/-- The queue of a `session`; `taken` is the frame that the writer has taken and not subtracted yet. -/
structure SendBytes where
  maxQueuedBytes : ℕ
  queuedBytes : ℤ := 0
  send : List ℕ := []
  calls : List EnqueueCall := []
  taken : Option ℕ := none

namespace SendBytes

inductive Action where
  | load (n : ℕ)
  | compareAndSwap (i : ℕ)
  | send (i : ℕ)
  | rollBack (i : ℕ)
  | take
  | subtract

/-- A call that finds the number changed leaves `calls`: it loads again. -/
def step (s : SendBytes) : Action → SendBytes
  | .load n =>
    if n > s.maxQueuedBytes ∨ s.queuedBytes > s.maxQueuedBytes - n then s
    else { s with calls := s.calls ++ [.loaded n s.queuedBytes] }
  | .compareAndSwap i => match s.calls[i]? with
    | some (.loaded n queued) =>
      if s.queuedBytes = queued then
        { s with queuedBytes := queued + n, calls := s.calls.eraseIdx i ++ [.reserved n] }
      else { s with calls := s.calls.eraseIdx i }
    | _ => s
  | .send i => match s.calls[i]? with
    | some (.reserved n) =>
      if s.send.length < perClientSendQueueDepth then
        { s with send := s.send ++ [n], calls := s.calls.eraseIdx i }
      else { s with calls := s.calls.eraseIdx i ++ [.refused n] }
    | _ => s
  | .rollBack i => match s.calls[i]? with
    | some (.refused n) => { s with queuedBytes := s.queuedBytes - n, calls := s.calls.eraseIdx i }
    | _ => s
  | .take => match s.taken, s.send with
    | none, n :: rest => { s with send := rest, taken := some n }
    | _, _ => s
  | .subtract => match s.taken with
    | some n => { s with queuedBytes := s.queuedBytes - n, taken := none }
    | none => s

/-- What is in the channel, what calls have reserved and what the writer has taken. -/
def outstanding (s : SendBytes) : ℕ :=
  s.send.sum + (s.calls.map EnqueueCall.held).sum + s.taken.getD 0

/-- The counter is what is outstanding, within the limit. -/
structure Exact (s : SendBytes) : Prop where
  exact : s.queuedBytes = s.outstanding
  bounded : s.queuedBytes ≤ s.maxQueuedBytes
  /-- What a call has loaded leaves room for its frame. -/
  room : ∀ (n : ℕ) (queued : ℤ), .loaded n queued ∈ s.calls → queued + n ≤ s.maxQueuedBytes

variable {s : SendBytes} {c : EnqueueCall} {i : ℕ}

lemma sum_eraseIdx (h : s.calls[i]? = some c) :
    (s.calls.map EnqueueCall.held).sum = c.held + ((s.calls.eraseIdx i).map EnqueueCall.held).sum := by
  obtain ⟨hi, rfl⟩ := List.getElem?_eq_some_iff.mp h
  rw [← ((getElem_cons_eraseIdx_perm hi).map EnqueueCall.held).sum_eq, map_cons, sum_cons]

/-- A call goes on: it is taken out, and may come back at another stage. -/
lemma Exact.move (h : s.Exact) (hcall : s.calls[i]? = some c) {calls l : List EnqueueCall}
    (hcalls : calls = s.calls.eraseIdx i ++ l) (hl : ∀ n queued, .loaded n queued ∉ l) {queuedBytes : ℤ}
    {send : List ℕ} (hbounded : queuedBytes ≤ s.maxQueuedBytes)
    (hexact : queuedBytes + (s.send.sum + c.held : ℕ) =
      s.queuedBytes + (send.sum + (l.map EnqueueCall.held).sum : ℕ)) :
    Exact { s with queuedBytes, send, calls } := by
  have hsum := sum_eraseIdx hcall
  have hold := h.exact
  subst hcalls
  refine ⟨?_, hbounded, fun n queued hmem => ?_⟩
  · simp only [outstanding, map_append, sum_append] at hold ⊢
    omega
  · rcases mem_append.mp hmem with hleft | hnew
    · exact h.room n queued (mem_of_mem_eraseIdx hleft)
    · exact absurd hnew (hl n queued)

lemma Exact.step (a : Action) (h : s.Exact) : (s.step a).Exact := by
  have hexact := h.exact
  have hbounded := h.bounded
  unfold SendBytes.step
  cases a with
  | load n =>
    dsimp only
    split
    · exact h
    next hfits =>
      refine ⟨by simpa [outstanding, EnqueueCall.held] using hexact, hbounded, fun m queued hmem => ?_⟩
      rcases mem_append.mp hmem with hold | hnew
      · exact h.room m queued hold
      · obtain ⟨rfl, rfl⟩ := EnqueueCall.loaded.inj (mem_singleton.mp hnew)
        show s.queuedBytes + m ≤ s.maxQueuedBytes
        omega
  | compareAndSwap i =>
    dsimp only
    split
    next n queued hcall =>
      split
      next hsame =>
        refine h.move hcall rfl (by simp) (h.room n queued (mem_of_getElem? hcall)) ?_
        simp only [EnqueueCall.held, map_cons, map_nil, sum_cons, sum_nil]
        omega
      · exact h.move hcall (append_nil _).symm (by simp) hbounded rfl
    · exact h
  | send i =>
    dsimp only
    split
    next n hcall =>
      split
      · refine h.move hcall (append_nil _).symm (by simp) hbounded ?_
        simp [EnqueueCall.held]
      · exact h.move hcall rfl (by simp) hbounded rfl
    · exact h
  | rollBack i =>
    dsimp only
    split
    next n hcall =>
      refine h.move hcall (append_nil _).symm (by simp) (by omega) ?_
      simp only [EnqueueCall.held, map_nil, sum_nil]
      omega
    · exact h
  | take =>
    dsimp only
    split
    next n rest htaken hsend =>
      refine ⟨?_, hbounded, h.room⟩
      simp [outstanding, htaken, hsend] at hexact ⊢
      omega
    · exact h
  | subtract =>
    dsimp only
    split
    next n htaken =>
      refine ⟨?_, ?_, h.room⟩
      · simp [outstanding, htaken] at hexact ⊢
        omega
      · dsimp only
        omega
    · exact h

/-- **The account of queued bytes is exact in every interleaving**: no reservation is lost or given back
twice, the limit is kept, and all of it is there again when nothing is queued and no call is between its
steps. -/
theorem queuedBytes_exact (maxQueuedBytes : ℕ) (as : List Action) :
    EachState SendBytes.step Exact { maxQueuedBytes } as :=
  eachState_of_inv Exact (fun _ a h => h.step a) ⟨rfl, by simp, by simp⟩ as

end SendBytes

end Iroh.Relay
