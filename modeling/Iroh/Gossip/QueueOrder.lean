import Iroh.Gossip.PeerReports

/-!
# The order in which queues are written

Reference: `gossip/topic.go` (`queueLocked`, `writeQueue`, `dropQueueLocked`, `send`, `connect`).

A peer has one queue at a time, but the writer of a dropped queue may still be in the middle of a write when
the next queue has begun.  It does no harm to the order: a dropped queue's sender is out of the peer's place
for good, so that no later queue uses it (`Lanes`).
-/

namespace Iroh.Gossip

open GossipProto List

def Writer.chosen? : Writer → Option ℕ
  | .chosen _ t | .writing _ t => some t
  | _ => none

def Writer.held : Writer → Option QueuedMessage
  | .taken m | .dialing m | .dialed m _ | .chosen m _ | .writing m _ => some m
  | _ => none

namespace WriterQueue

/-- The numbers of the messages that are still to be written, that of the writer first. -/
def pending (s : WriterQueue) : List ℕ :=
  (s.writer.held.map QueuedMessage.number).toList ++ s.items.filterMap SendItem.number?

def Uses (s : WriterQueue) (t : ℕ) : Prop := s.sender = some t ∨ ∃ m, s.writer = .chosen m t

end WriterQueue

def StreamEvent.written? : StreamEvent → Option Written
  | .wrote w => some w
  | _ => none

namespace PeerLink

variable {l l' : PeerLink} {q : ℕ} {s s' : WriterQueue}

def writes (l : PeerLink) : List Written := l.events.filterMap StreamEvent.written?

def streamAt (l : PeerLink) (t : ℕ) (topic : TopicID) : Option ℕ :=
  l.senders[t]?.bind fun sd => sd.streams.get? topic

def nextWrite (l : PeerLink) (t : ℕ) (m : QueuedMessage) : Written where
  sender := t
  topic := m.msg.topic
  stream := (l.streamAt t m.msg.topic).getD l.nextStream
  number := m.number
  disconnect := isDisconnect m.msg.message
  epoch := l.epoch
  single := l.hasSingleConn

/-! ## What an action does to the queues -/

/-- Only a new sender takes the place. -/
structure PlaceMoves (l l' : PeerLink) : Prop where
  senders_le : l.senders.length ≤ l'.senders.length
  place : ∀ t, l'.peerSender = some t →
    l.peerSender = some t ∨ t = l.senders.length ∧ t < l'.senders.length

lemma PlaceMoves.of_eq (hsenders : l'.senders = l.senders) (hplace : l'.peerSender = l.peerSender) :
    PlaceMoves l l' :=
  ⟨hsenders ▸ Nat.le_refl _, fun _ ht => .inl (hplace ▸ ht)⟩

lemma Keeps.placeMoves (h : Keeps l l') : PlaceMoves l l' := by
  have hlen : l'.senders.length = l.senders.length := by
    rw [← length_map (f := Sender.conn), h.senders, length_map]
  refine ⟨hlen.ge, fun t ht => .inl ?_⟩
  rcases h.place with ⟨hp, -⟩ | ⟨hp, -⟩
  · exact hp ▸ ht
  · cases hp.symm.trans ht

lemma Enters.placeMoves (h : Enters conn l l') : PlaceMoves l l' := by
  have hlen : l'.senders.length = l.senders.length + 1 := by
    rw [← length_map (f := Sender.conn), h.senders]
    simp
  refine ⟨by omega, fun t ht => .inr ?_⟩
  rw [h.peerSender] at ht
  have : l.senders.length = t := Option.some.inj ht
  omega

/-- The queues stay as they are. -/
structure SameQueues (l l' : PeerLink) : Prop extends PlaceMoves l l' where
  queues : l'.queues = l.queues
  sendQueue : l'.sendQueue = l.sendQueue
  nextNumber : l'.nextNumber = l.nextNumber
  writes : l'.writes = l.writes

/-- A turn of the writer of one queue. -/
structure Turn (l l' : PeerLink) (q : ℕ) (s s' : WriterQueue) : Prop extends PlaceMoves l l' where
  queue : l.queues[q]? = some s
  queues : l'.queues = l.queues.set q s'
  done : s.writer = .done → s'.writer = .done
  dropped : s.dropped = true → s'.dropped = true
  drops : s'.dropped = true → s.dropped = true ∨
    l.sendQueue = some q ∧ l'.sendQueue = none ∧ ∀ t, s'.sender = some t → l'.peerSender ≠ some t
  sendQueue : l'.sendQueue = l.sendQueue ∨
    l.sendQueue = some q ∧ l'.sendQueue = none ∧ (s'.dropped = true ∨ s'.writer = .done)
  sender : ∀ t, s'.sender = some t → s.sender = some t ∨ s.dropped = false
  uses : ∀ t, s'.Uses t →
    s.Uses t ∨ l.peerSender = some t ∨ t = l.senders.length ∧ t < l'.senders.length
  writing : ∀ m t, s'.writer = .writing m t → s.writer = .writing m t ∧ s'.sender = s.sender ∨
      s'.sender = some t ∧ s.dropped = false ∧ s.writer = .chosen m t

/-- A turn takes messages out in order and writes at most one. -/
structure Advance (l l' : PeerLink) (q : ℕ) (s s' : WriterQueue) : Prop extends Turn l l' q s s' where
  nextNumber : l'.nextNumber = l.nextNumber
  pending : s'.pending.Sublist s.pending
  writes : l'.writes = l.writes ∨ ∃ m w, s.writer = .writing m w.sender ∧ s'.writer.held = none ∧
    s.pending = m.number :: s'.pending ∧ l'.writes = l.writes ++ [w] ∧ w.number = m.number

/-- The streams stay as they are. -/
structure SameStreams (l l' : PeerLink) : Prop where
  streamAt : ∀ t topic, l'.streamAt t topic = l.streamAt t topic
  nextStream : l'.nextStream = l.nextStream
  events : l'.events = l.events
  epoch : l'.conns = l.conns ∧ l'.epoch = l.epoch ∨ l.epoch < l'.epoch

lemma SameStreams.of_eq (h : (l'.senders, l'.nextStream, l'.events, l'.conns, l'.epoch) =
    (l.senders, l.nextStream, l.events, l.conns, l.epoch)) : SameStreams l l' := by
  simp only [Prod.mk.injEq] at h
  exact ⟨fun t topic => by rw [PeerLink.streamAt, PeerLink.streamAt, h.1], h.2.1, h.2.2.1, .inl h.2.2.2⟩

lemma SameStreams.writes (h : SameStreams l l') : l'.writes = l.writes := by
  rw [PeerLink.writes, PeerLink.writes, h.events]

/-- A step beside the queues and what is written. -/
structure Aside (l l' : PeerLink) : Prop extends PlaceMoves l l', SameStreams l l' where
  queues : l'.queues = l.queues
  sendQueue : l'.sendQueue = l.sendQueue
  nextNumber : l'.nextNumber = l.nextNumber

lemma Aside.sameQueues (h : Aside l l') : SameQueues l l' := { h with writes := h.writes }

section

variable (l : PeerLink)

lemma aside_unregister : Aside l l.unregister :=
  ⟨l.keeps_unregister.placeMoves, .of_eq rfl, rfl, rfl, rfl⟩

lemma aside_disconnect : Aside l l.disconnect := { l.aside_unregister with }

lemma aside_openConn : Aside l l.openConn :=
  ⟨.of_eq rfl rfl, ⟨fun _ _ => rfl, rfl, rfl, .inr (Nat.lt_succ_self _)⟩, rfl, rfl, rfl⟩

lemma aside_closeConn (conn : ℕ) : Aside l (l.closeConn conn) := by
  unfold closeConn
  split
  · exact ⟨.of_eq rfl rfl, ⟨fun _ _ => rfl, rfl, rfl, .inr (Nat.lt_succ_self _)⟩, rfl, rfl, rfl⟩
  · exact ⟨.of_eq rfl rfl, .of_eq rfl, rfl, rfl, rfl⟩

lemma sameStreams_register (conn : ℕ) : SameStreams l (l.register conn) := by
  refine ⟨fun t topic => ?_, rfl, rfl, .inl ⟨rfl, rfl⟩⟩
  rw [streamAt, streamAt, register, getElem?_append]
  split
  · rfl
  next hge =>
    rw [getElem?_eq_none (Nat.le_of_not_lt hge), getElem?_singleton]
    split <;> rfl

lemma aside_accept (i : ℕ) : Aside l (l.accept i) := by
  have hmoves : PlaceMoves l (l.accept i) := by
    rcases l.accept_cases i with hkeeps | ⟨conn, henters⟩
    · exact hkeeps.placeMoves
    · exact henters.placeMoves
  unfold accept at hmoves ⊢
  split at hmoves
  · split
    · exact ⟨.of_eq rfl rfl, .of_eq rfl, rfl, rfl, rfl⟩
    next conn _ hopen =>
      rw [if_neg hopen] at hmoves
      exact ⟨hmoves, { l.sameStreams_register conn with }, rfl, rfl, rfl⟩
  · exact ⟨hmoves, .of_eq rfl, rfl, rfl, rfl⟩

lemma aside_acceptReturns (i : ℕ) : Aside l (l.acceptReturns i) := by
  unfold acceptReturns
  split
  · split
    · exact { l.aside_unregister with }
    · exact ⟨.of_eq rfl rfl, .of_eq rfl, rfl, rfl, rfl⟩
  · exact ⟨.of_eq rfl rfl, .of_eq rfl, rfl, rfl, rfl⟩

end

/-! ## Who writes through which sender -/

/-- The current queue is not dropped, and any other is dropped or done. -/
structure InLane (l : PeerLink) (q : ℕ) (s : WriterQueue) : Prop where
  live : l.sendQueue = some q → s.dropped = false
  ended : l.sendQueue ≠ some q → s.dropped = true ∨ s.writer = .done
  uses_lt : ∀ t, s.Uses t → t < l.senders.length
  off_place : s.dropped = true → ∀ t, s.sender = some t → l.peerSender ≠ some t
  writing : ∀ m t, s.writer = .writing m t → s.sender = some t

/-- Only the last queue may be the peer's.  The sender of a dropped queue is of no use to a later
queue. -/
structure Lanes (l : PeerLink) : Prop where
  place_lt : ∀ t, l.peerSender = some t → t < l.senders.length
  last : ∀ q, l.sendQueue = some q → q + 1 = l.queues.length
  queue : ∀ (q : ℕ) s, l.queues[q]? = some s → l.InLane q s
  apart : ∀ (q₁ q₂ : ℕ) s₁ s₂, l.queues[q₁]? = some s₁ → l.queues[q₂]? = some s₂ → q₁ < q₂ →
    s₁.dropped = true → ∀ t, s₁.sender = some t → ¬s₂.Uses t

variable {q₂ t : ℕ} {s₂ : WriterQueue} {m : QueuedMessage} {writer : Writer}

lemma Lanes.dropped_of_lt (h : l.Lanes) (hq : l.queues[q]? = some s) (hq₂ : l.queues[q₂]? = some s₂)
    (hlt : q < q₂) (hdone : s.writer ≠ .done) : s.dropped = true := by
  refine ((h.queue q s hq).ended ?_).resolve_right hdone
  intro hlive
  have := h.last q hlive
  have := (List.getElem?_eq_some_iff.mp hq₂).1
  omega

lemma Lanes.writing_unique (h : l.Lanes) (hq : l.queues[q]? = some s)
    (hq₂ : l.queues[q₂]? = some s₂) (hw : s.writer = .writing m t) (hw₂ : s₂.writer = .writing m₂ t) :
    q = q₂ := by
  have hsender := (h.queue q s hq).writing m t hw
  have hsender₂ := (h.queue q₂ s₂ hq₂).writing m₂ t hw₂
  -- of two queues the older one is dropped, and the newer does not use its sender
  rcases Nat.lt_trichotomy q q₂ with hlt | heq | hlt
  · have hdropped := h.dropped_of_lt hq hq₂ hlt (by simp [hw])
    exact absurd (.inl hsender₂) (h.apart q q₂ s s₂ hq hq₂ hlt hdropped t hsender)
  · exact heq
  · have hdropped := h.dropped_of_lt hq₂ hq hlt (by simp [hw₂])
    exact absurd (.inl hsender) (h.apart q₂ q s₂ s hq₂ hq hlt hdropped t hsender₂)

lemma Lanes.place_lt_of_placeMoves (h : l.Lanes) (hmoves : PlaceMoves l l') :
    ∀ t, l'.peerSender = some t → t < l'.senders.length := by
  intro t ht
  rcases hmoves.place t ht with ht | ⟨-, ht⟩
  · exact (h.place_lt t ht).trans_le hmoves.senders_le
  · exact ht

lemma PlaceMoves.off_place (hmoves : PlaceMoves l l') (hlt : t < l.senders.length)
    (h : l.peerSender ≠ some t) : l'.peerSender ≠ some t := by
  intro ht
  rcases hmoves.place t ht with ht | ⟨rfl, -⟩
  · exact h ht
  · exact Nat.lt_irrefl _ hlt

lemma InLane.moves (h : l.InLane q s) (hmoves : PlaceMoves l l')
    (hlive : l'.sendQueue = some q ↔ l.sendQueue = some q) : l'.InLane q s where
  live hq := h.live (hlive.mp hq)
  ended hq := h.ended (hq ∘ hlive.mpr)
  uses_lt t ht := (h.uses_lt t ht).trans_le hmoves.senders_le
  off_place hdropped t ht := hmoves.off_place (h.uses_lt t (.inl ht)) (h.off_place hdropped t ht)
  writing := h.writing

lemma Lanes.same (h : l.Lanes) (hsame : SameQueues l l') : l'.Lanes := by
  refine ⟨h.place_lt_of_placeMoves hsame.toPlaceMoves, ?_, ?_, ?_⟩ <;> rw [hsame.queues]
  · rw [hsame.sendQueue]
    exact h.last
  · exact fun q s hq => (h.queue q s hq).moves hsame.toPlaceMoves (by rw [hsame.sendQueue])
  · exact h.apart

lemma Turn.getElem?_eq_some (hturn : Turn l l' q s s') (h : l'.queues[q₂]? = some s₂) :
    q₂ = q ∧ s₂ = s' ∨ q₂ ≠ q ∧ l.queues[q₂]? = some s₂ := by
  rw [hturn.queues] at h
  exact getElem?_set_eq_some h

lemma Turn.live (hturn : Turn l l' q s s') (hlive : l'.sendQueue = some q₂) :
    l.sendQueue = some q₂ := by
  rcases hturn.sendQueue with heq | ⟨-, hnone, -⟩
  · exact heq ▸ hlive
  · cases hnone.symm.trans hlive

lemma Turn.dropped_sender (hturn : Turn l l' q s s') (hdropped : s'.dropped = true)
    (ht : s'.sender = some t) :
    s.dropped = true ∧ s.sender = some t ∨ l.sendQueue = some q ∧ l'.peerSender ≠ some t := by
  rcases hturn.drops hdropped with hs | ⟨hlive, -, hoff⟩
  · exact .inl ⟨hs, (hturn.sender t ht).resolve_right (by simp [hs])⟩
  · exact .inr ⟨hlive, hoff t ht⟩

lemma InLane.turn (h : l.InLane q s) (hplace : ∀ t, l.peerSender = some t → t < l.senders.length)
    (hturn : Turn l l' q s s') : l'.InLane q s' := by
  constructor
  · intro hlive
    rw [← Bool.not_eq_true]
    intro hdropped
    rcases hturn.drops hdropped with hs | ⟨-, hnone, -⟩
    · exact Bool.false_ne_true ((h.live (hturn.live hlive)).symm.trans hs)
    · exact Option.some_ne_none q (hlive.symm.trans hnone)
  · intro hnot
    rcases hturn.sendQueue with heq | ⟨-, -, hend⟩
    · exact (h.ended (heq ▸ hnot)).imp hturn.dropped hturn.done
    · exact hend
  · intro t ht
    rcases hturn.uses t ht with hs | hp | ⟨-, hlt⟩
    · exact (h.uses_lt t hs).trans_le hturn.senders_le
    · exact (hplace t hp).trans_le hturn.senders_le
    · exact hlt
  · intro hdropped t ht
    rcases hturn.dropped_sender hdropped ht with ⟨hs, hst⟩ | ⟨-, hoff⟩
    · exact hturn.off_place (h.uses_lt t (.inl hst)) (h.off_place hs t hst)
    · exact hoff
  · intro m t hw
    rcases hturn.writing m t hw with ⟨hs, hsender⟩ | ⟨hsender, -⟩
    · exact hsender.trans (h.writing m t hs)
    · exact hsender

lemma Lanes.turn (h : l.Lanes) (hturn : Turn l l' q s s') : l'.Lanes := by
  have hq := hturn.queue
  refine ⟨h.place_lt_of_placeMoves hturn.toPlaceMoves, fun q₂ hlive => ?_, fun q₂ s₂ hq₂ => ?_, ?_⟩
  · rw [hturn.queues, length_set]
    exact h.last q₂ (hturn.live hlive)
  · rcases hturn.getElem?_eq_some hq₂ with ⟨rfl, rfl⟩ | ⟨hne, hq₂⟩
    · exact (h.queue q₂ s hq).turn h.place_lt hturn
    · refine (h.queue q₂ s₂ hq₂).moves hturn.toPlaceMoves ?_
      rcases hturn.sendQueue with heq | ⟨hlive, hnone, -⟩
      · rw [heq]
      · simp [hlive, hnone, hne.symm]
  · intro q₁ q₂ s₁ s₂ hq₁ hq₂ hlt hdropped t ht huses
    rcases hturn.getElem?_eq_some hq₁ with ⟨rfl, rfl⟩ | ⟨-, hq₁⟩
    · have hq₂ := ((hturn.getElem?_eq_some hq₂).resolve_left (by omega)).2
      rcases hturn.dropped_sender hdropped ht with ⟨hs, hst⟩ | ⟨hlive, -⟩
      · exact h.apart q₁ q₂ s s₂ hq hq₂ hlt hs t hst huses
      · -- the queue that was just dropped is the last one
        have := h.last q₁ hlive
        have := (List.getElem?_eq_some_iff.mp hq₂).1
        omega
    · rcases hturn.getElem?_eq_some hq₂ with ⟨rfl, rfl⟩ | ⟨-, hq₂⟩
      · rcases hturn.uses t huses with hs | hp | ⟨hnew, -⟩
        · exact h.apart q₁ q₂ s₁ s hq₁ hq hlt hdropped t ht hs
        · exact (h.queue q₁ s₁ hq₁).off_place hdropped t ht hp
        · exact ((h.queue q₁ s₁ hq₁).uses_lt t (.inl ht)).ne hnew
      · exact h.apart q₁ q₂ s₁ s₂ hq₁ hq₂ hlt hdropped t ht huses

def openQueue (l : PeerLink) : PeerLink :=
  { l with sendQueue := some l.queues.length, queues := l.queues ++ [⟨[], none, false, .head⟩] }

lemma Lanes.openQueue (h : l.Lanes) (hnone : l.sendQueue = none) : l.openQueue.Lanes := by
  refine ⟨h.place_lt, fun q hq => ?_, fun q s hq => ?_, fun q₁ q₂ s₁ s₂ hq₁ hq₂ hlt hdropped t ht => ?_⟩
  · cases hq
    simp [PeerLink.openQueue]
  · rcases getElem?_concat_eq_some hq with hq | ⟨rfl, rfl⟩
    · refine (h.queue q s hq).moves (.of_eq rfl rfl) (iff_of_false (fun hlive => ?_) (by simp [hnone]))
      exact (List.getElem?_eq_some_iff.mp hq).1.ne' (Option.some.inj hlive)
    · exact ⟨fun _ => rfl, fun hnot => absurd rfl hnot, by simp [WriterQueue.Uses], nofun, nofun⟩
  · rcases getElem?_concat_eq_some hq₁ with hq₁ | ⟨-, rfl⟩
    · rcases getElem?_concat_eq_some hq₂ with hq₂ | ⟨-, rfl⟩
      · exact h.apart q₁ q₂ s₁ s₂ hq₁ hq₂ hlt hdropped t ht
      · simp [WriterQueue.Uses]
    · cases ht

/-! ## Numbers -/

def pending (l : PeerLink) : List ℕ := l.queues.flatMap WriterQueue.pending

/-- What is pending is in order, after what was written. -/
structure Numbered (l : PeerLink) : Prop where
  sorted : l.pending.Pairwise (· < ·)
  pending_lt : ∀ n ∈ l.pending, n < l.nextNumber
  written_lt : ∀ w ∈ l.writes, w.number < l.nextNumber
  ahead : ∀ (q : ℕ) s, l.queues[q]? = some s → l.sendQueue = some q →
    ∀ w ∈ l.writes, ∀ n ∈ s.pending, w.number < n
  writing : ∀ (q : ℕ) s, l.queues[q]? = some s → ∀ m t, s.writer = .writing m t →
    ∀ w ∈ l.writes, w.sender = t → w.number < m.number
  written : l.writes.Pairwise fun w w' => w.sender = w'.sender → w.number < w'.number

lemma mem_pending (hq : l.queues[q]? = some s) (hn : n ∈ s.pending) : n ∈ l.pending :=
  mem_flatMap.mpr ⟨s, mem_of_getElem? hq, hn⟩

lemma pending_eq (hq : l.queues[q]? = some s) :
    l.pending = (l.queues.take q).flatMap WriterQueue.pending ++ (s.pending ++
      (l.queues.drop (q + 1)).flatMap WriterQueue.pending) := by
  obtain ⟨hlt, rfl⟩ := List.getElem?_eq_some_iff.mp hq
  rw [← flatMap_cons, getElem_cons_drop, ← flatMap_append, take_append_drop]
  rfl

lemma Advance.pending_sublist (ha : Advance l l' q s s') : l'.pending.Sublist l.pending := by
  have hlt := (List.getElem?_eq_some_iff.mp ha.queue).1
  have hq : l'.queues[q]? = some s' := by
    rw [ha.queues, getElem?_set_self hlt]
  rw [pending_eq hq, pending_eq ha.queue, ha.queues, take_set_of_le (Nat.le_refl q),
    drop_set_of_lt (Nat.lt_succ_self q)]
  exact (ha.pending.append_right _).append_left _

namespace Numbered

variable (h : l.Numbered)
include h

lemma pairwise_queue (hq : l.queues[q]? = some s) : s.pending.Pairwise (· < ·) :=
  (pairwise_flatMap.mp h.sorted).1 s (mem_of_getElem? hq)

lemma lt_of_lt (hq : l.queues[q]? = some s)
    (hq₂ : l.queues[q₂]? = some s₂) (hlt : q < q₂) (hn : n ∈ s.pending)
    (hn₂ : n₂ ∈ s₂.pending) : n < n₂ := by
  obtain ⟨hlen, rfl⟩ := List.getElem?_eq_some_iff.mp hq
  obtain ⟨hlen₂, rfl⟩ := List.getElem?_eq_some_iff.mp hq₂
  have hqueues := pairwise_iff_getElem.mp (pairwise_flatMap.mp h.sorted).2
  exact hqueues q q₂ hlen hlen₂ hlt n hn n₂ hn₂

lemma same (hsame : SameQueues l l') : l'.Numbered := by
  have hpending : l'.pending = l.pending := by rw [pending, pending, hsame.queues]
  constructor
  · exact hpending ▸ h.sorted
  · rw [hpending, hsame.nextNumber]
    exact h.pending_lt
  · rw [hsame.writes, hsame.nextNumber]
    exact h.written_lt
  · rw [hsame.queues, hsame.sendQueue, hsame.writes]
    exact h.ahead
  · rw [hsame.queues, hsame.writes]
    exact h.writing
  · exact hsame.writes ▸ h.written

lemma advance (hlanes : l.Lanes) (ha : Advance l l' q s s') : l'.Numbered := by
  have hq := ha.queue
  -- a message that was just written was the first of its queue
  have hnew : ∀ w ∈ l'.writes, w ∈ l.writes ∨ ∃ m, s.writer = .writing m w.sender ∧
      s'.writer.held = none ∧ s.pending = m.number :: s'.pending ∧ w.number = m.number := by
    intro w hw
    rcases ha.writes with heq | ⟨m, w', hwriter, hheld, hpending, heq, hnumber⟩
    · exact .inl (heq ▸ hw)
    · rw [heq, mem_append, mem_singleton] at hw
      rcases hw with hw | rfl
      · exact .inl hw
      · exact .inr ⟨m, hwriter, hheld, hpending, hnumber⟩
  constructor
  · exact h.sorted.sublist ha.pending_sublist
  · rw [ha.nextNumber]
    exact fun n hn => h.pending_lt n (ha.pending_sublist.subset hn)
  · rw [ha.nextNumber]
    intro w hw
    rcases hnew w hw with hw | ⟨m, -, -, hpending, hnumber⟩
    · exact h.written_lt w hw
    · rw [hnumber]
      exact h.pending_lt _ (mem_pending hq (by simp [hpending]))
  · intro q₂ s₂ hq₂ hlive w hw n hn
    have hlive := ha.live hlive
    rcases ha.getElem?_eq_some hq₂ with ⟨rfl, rfl⟩ | ⟨hne, hq₂⟩
    · rcases hnew w hw with hw | ⟨m, -, -, hpending, hnumber⟩
      · exact h.ahead q₂ s hq hlive w hw n (ha.pending.subset hn)
      · have hsorted := h.pairwise_queue hq
        rw [hpending] at hsorted
        exact hnumber ▸ (pairwise_cons.mp hsorted).1 n hn
    · rcases hnew w hw with hw | ⟨m, -, -, hpending, hnumber⟩
      · exact h.ahead q₂ s₂ hq₂ hlive w hw n hn
      · -- the peer's queue is the last one
        have := hlanes.last q₂ hlive
        have := (List.getElem?_eq_some_iff.mp hq).1
        exact hnumber ▸ h.lt_of_lt hq hq₂ (by omega) (by simp [hpending]) hn
  · intro q₂ s₂ hq₂ m t hwriting w hw hsender
    rcases ha.getElem?_eq_some hq₂ with ⟨rfl, rfl⟩ | ⟨hne, hq₂⟩
    · rcases hnew w hw with hw | ⟨m', -, hheld, -, -⟩
      · rcases ha.toTurn.writing m t hwriting with ⟨hs, -⟩ | ⟨-, hdropped, hs⟩
        · exact h.writing q₂ s hq m t hs w hw hsender
        · have hlive : l.sendQueue = some q₂ := by
            by_contra hnot
            rcases (hlanes.queue q₂ s hq).ended hnot with hend | hend
            · exact Bool.false_ne_true (hdropped.symm.trans hend)
            · cases hs.symm.trans hend
          refine h.ahead q₂ s hq hlive w hw m.number ?_
          simp [WriterQueue.pending, hs, Writer.held]
      · rw [hwriting] at hheld
        cases hheld
    · rcases hnew w hw with hw | ⟨m', hs, -, -, -⟩
      · exact h.writing q₂ s₂ hq₂ m t hwriting w hw hsender
      · exact absurd (hlanes.writing_unique hq₂ hq hwriting (hsender ▸ hs)) hne
  · rcases ha.writes with heq | ⟨m, w, hwriter, -, -, heq, hnumber⟩
    · exact heq ▸ h.written
    · rw [heq, pairwise_append]
      refine ⟨h.written, pairwise_singleton _ _, fun w₁ hw₁ w₂ hw₂ hsender => ?_⟩
      obtain rfl := mem_singleton.mp hw₂
      exact hnumber ▸ h.writing q s hq m w₂.sender hwriter w₁ hw₁ hsender

lemma openQueue : l.openQueue.Numbered := by
  have hpending : l.openQueue.pending = l.pending := by
    rw [pending, PeerLink.openQueue, flatMap_append]
    exact append_nil _
  refine ⟨hpending ▸ h.sorted, hpending ▸ h.pending_lt, h.written_lt, fun q s hq hlive => ?_,
    fun q s hq m t hw => ?_, h.written⟩
  · cases hlive
    obtain rfl := Option.some.inj (getElem?_concat_length.symm.trans hq)
    exact fun _ _ _ => nofun
  · rcases getElem?_concat_eq_some hq with hq | ⟨-, rfl⟩
    · exact h.writing q s hq m t hw
    · cases hw

end Numbered

/-! ## The operations -/

/-- The invariant of the queues. -/
structure Ordered (l : PeerLink) : Prop where
  lanes : l.Lanes
  numbered : l.Numbered

lemma ordered_newPeerLink : newPeerLink.Ordered where
  lanes := by constructor <;> intros <;> simp_all [newPeerLink]
  numbered := by constructor <;> simp [newPeerLink, pending, writes]

lemma Turn.ofWriter (hmoves : PlaceMoves l l') (hq : l.queues[q]? = some s)
    (hqueues : l'.queues = l.queues.set q s') (hsendQueue : l'.sendQueue = l.sendQueue)
    (hdropped : s'.dropped = s.dropped) (hsender : s'.sender = s.sender)
    (hdone : s.writer = .done → s'.writer = .done)
    (hchosen : s'.writer.chosen? = none ∨ s'.writer = s.writer ∨
      ∃ m t, s'.writer = .chosen m t ∧ l.peerSender = some t) : Turn l l' q s s' where
  toPlaceMoves := hmoves
  queue := hq
  queues := hqueues
  done := hdone
  dropped := hdropped.trans
  drops h := .inl (hdropped ▸ h)
  sendQueue := .inl hsendQueue
  sender _ h := .inl (hsender ▸ h)
  uses t h := by
    rcases h with h | ⟨m, h⟩
    · exact .inl (.inl (hsender ▸ h))
    · rcases hchosen with hnone | heq | ⟨m', t', hw, hplace⟩
      · rw [h] at hnone
        cases hnone
      · exact .inl (.inr ⟨m, heq ▸ h⟩)
      · obtain ⟨-, rfl⟩ := Writer.chosen.inj (h.symm.trans hw)
        exact .inr (.inl hplace)
  writing m t h := by
    rcases hchosen with hnone | heq | ⟨m', t', hw, -⟩
    · rw [h] at hnone
      cases hnone
    · exact .inl ⟨heq ▸ h, hsender⟩
    · cases h.symm.trans hw

namespace Ordered

lemma same (h : l.Ordered) (hsame : SameQueues l l') : l'.Ordered :=
  ⟨h.lanes.same hsame, h.numbered.same hsame⟩

lemma advance (h : l.Ordered) (ha : Advance l l' q s s') : l'.Ordered :=
  ⟨h.lanes.turn ha.toTurn, h.numbered.advance h.lanes ha⟩

lemma queueItem (h : l.Ordered) (hlive : l.sendQueue = some q) (hq : l.queues[q]? = some s)
    (hitem : ∀ n ∈ item.number?, n = l.nextNumber) (heq : l' = { l with
      queues := l.queues.set q { s with items := s.items ++ [item] }
      nextNumber := l.nextNumber + 1 }) : l'.Ordered := by
  have hitems : WriterQueue.pending { s with items := s.items ++ [item] } =
      s.pending ++ item.number?.toList := by
    cases hi : item.number? <;> simp [WriterQueue.pending, hi]
  have hturn : Turn l l' q s { s with items := s.items ++ [item] } := by
    subst heq
    exact .ofWriter (.of_eq rfl rfl) hq rfl rfl rfl rfl id (.inr (.inl rfl))
  have hlt := (List.getElem?_eq_some_iff.mp hq).1
  have hpending : l'.pending = l.pending ++ item.number?.toList := by
    -- the peer's queue is the last one
    have hlast : l.queues.drop (q + 1) = [] := by
      rw [h.lanes.last q hlive, drop_length]
    rw [pending_eq (hturn.queues ▸ getElem?_set_self hlt), pending_eq hq, hitems, hturn.queues,
      take_set_of_le (Nat.le_refl q), drop_set_of_lt (Nat.lt_succ_self q), hlast]
    simp
  have hnumber : ∀ n ∈ item.number?.toList, n = l.nextNumber :=
    fun n hn => hitem n (Option.mem_toList.mp hn)
  have hold := h.numbered
  have hwrites : l'.writes = l.writes := by rw [heq, writes, writes]
  refine ⟨h.lanes.turn hturn, ?_, ?_, ?_, fun q₂ s₂ hq₂ hlive₂ w hw n hn => ?_,
    fun q₂ s₂ hq₂ m t hm => ?_, hwrites ▸ hold.written⟩
  · rw [hpending, pairwise_append]
    refine ⟨hold.sorted, ?_, fun a ha b hb => hnumber b hb ▸ hold.pending_lt a ha⟩
    cases item.number? <;> simp
  · rw [hpending, forall_mem_append, heq]
    exact ⟨fun n hn => (hold.pending_lt n hn).trans (Nat.lt_succ_self _),
      fun n hn => hnumber n hn ▸ Nat.lt_succ_self _⟩
  · rw [heq]
    exact fun w hw => (hold.written_lt w hw).trans (Nat.lt_succ_self _)
  · rw [hwrites] at hw
    rcases hturn.getElem?_eq_some hq₂ with ⟨rfl, rfl⟩ | ⟨-, hq₂⟩
    · rw [hitems, mem_append] at hn
      rcases hn with hn | hn
      · exact hold.ahead q₂ s hq hlive w hw n hn
      · exact hnumber n hn ▸ hold.written_lt w hw
    · exact hold.ahead q₂ s₂ hq₂ (hturn.live hlive₂) w hw n hn
  · rw [hwrites]
    rcases hturn.getElem?_eq_some hq₂ with ⟨rfl, rfl⟩ | ⟨-, hq₂⟩
    · exact hold.writing q₂ s hq m t hm
    · exact hold.writing q₂ s₂ hq₂ m t hm

lemma enqueue (h : l.Ordered) (hitem : ∀ k, ∀ n ∈ (item k).number?, n = k)
    (start : Bool) : (l.enqueue item start).Ordered := by
  unfold PeerLink.enqueue
  split
  next hnone =>
    split
    · exact h
    · have hopen : l.openQueue.Ordered := ⟨h.lanes.openQueue hnone, h.numbered.openQueue⟩
      refine hopen.queueItem rfl getElem?_concat_length (hitem l.nextNumber) ?_
      simp [openQueue]
  next q hlive =>
    split
    · exact h
    next s hq =>
      split
      · exact h
      · exact h.queueItem hlive hq (hitem l.nextNumber) rfl

end Ordered

/-! ### Drops -/

lemma advance_dropQueueLocked (hlive : l.sendQueue = some q) (hq : l.queues[q]? = some s) :
    Advance l (l.dropQueueLocked q s) q s { s with items := [], dropped := true } := by
  have hframe : (l.dropQueueLocked q s).queues = l.queues.set q { s with items := [], dropped := true } ∧
      (l.dropQueueLocked q s).sendQueue = none ∧ (l.dropQueueLocked q s).nextNumber = l.nextNumber ∧
      (l.dropQueueLocked q s).writes = l.writes := by
    unfold dropQueueLocked
    dsimp only
    split <;> exact ⟨rfl, rfl, rfl, rfl⟩
  have hoff : ∀ t, s.sender = some t → (l.dropQueueLocked q s).peerSender ≠ some t := by
    intro t ht
    unfold dropQueueLocked
    dsimp only
    split
    · nofun
    next hnot => simpa [ht] using hnot
  obtain ⟨hqueues, hsendQueue, hnextNumber, hwrites⟩ := hframe
  exact {
    toPlaceMoves := (l.keeps_dropQueueLocked q s).placeMoves
    queue := hq
    queues := hqueues
    done := id
    dropped := fun _ => rfl
    drops := fun _ => .inr ⟨hlive, hsendQueue, hoff⟩
    sendQueue := .inr ⟨hlive, hsendQueue, .inl rfl⟩
    sender := fun _ => .inl
    uses := fun _ => .inl
    writing := fun _ _ h => .inl ⟨h, rfl⟩
    nextNumber := hnextNumber
    pending := by simp [WriterQueue.pending]
    writes := .inl hwrites }

lemma Drops.length_queues (h : Drops l l') : l'.queues.length = l.queues.length := by
  rcases h with rfl | ⟨q, s, hlive, hq, rfl⟩
  · rfl
  · rw [(advance_dropQueueLocked hlive hq).queues, length_set]

lemma Ordered.drops (h : l.Ordered) (hdrops : Drops l l') : l'.Ordered := by
  rcases hdrops with rfl | ⟨q, s, hlive, hq, rfl⟩
  · exact h
  · exact h.advance (advance_dropQueueLocked hlive hq)

lemma Ordered.shutdownEnd (h : l.Ordered) : l.shutdownEnd.Ordered := by
  rcases l.shutdownEnd_cases with heq | ⟨l', hdrops, heq⟩
  · rw [heq]
    exact h
  · rw [heq]
    exact (h.drops hdrops).same l'.aside_disconnect.sameQueues

/-! ### Writers -/

lemma modify_eq_set {α : Type*} {as : List α} {a : α} (f : α → α) (h : as[i]? = some a) :
    as.modify i f = as.set i (f a) := by
  rw [modify_eq_set_getElem?, h]
  rfl

section

variable (h : l.Ordered) (hq : l.queues[q]? = some s)
include h hq

lemma Ordered.setWriter (hdone : s.writer = .done → writer = .done)
    (hheld : writer.held = none ∨ writer.held = s.writer.held)
    (hchosen : writer.chosen? = none ∨ ∃ m t, writer = .chosen m t ∧ l.peerSender = some t) :
    (l.setWriter q writer).Ordered := by
  have hturn : Turn l (l.setWriter q writer) q s { s with writer := writer } :=
    .ofWriter (.of_eq rfl rfl) hq (modify_eq_set _ hq) rfl rfl rfl hdone (hchosen.imp_right .inr)
  have hpending : (WriterQueue.pending { s with writer := writer }).Sublist s.pending := by
    rcases hheld with hheld | hheld <;> simp [WriterQueue.pending, hheld]
  exact h.advance ⟨hturn, rfl, hpending, .inl rfl⟩

lemma Ordered.takeItem (hw : s.writer = .head) : (l.takeItem q s).Ordered := by
  unfold PeerLink.takeItem
  split
  next m items hdropped hitems =>
    refine h.advance ⟨.ofWriter (.of_eq rfl rfl) hq rfl rfl rfl rfl (by simp [hw]) (.inl rfl), rfl, ?_,
      .inl rfl⟩
    simp [WriterQueue.pending, hw, hitems, Writer.held, SendItem.number?]
  next items hdropped hitems =>
    refine h.advance ⟨.ofWriter (.of_eq rfl rfl) hq rfl rfl rfl rfl (by simp [hw]) (.inl rfl), rfl, ?_,
      .inl rfl⟩
    simp [WriterQueue.pending, hitems, Writer.held, filterMap_cons, SendItem.number?]
  · refine h.advance (q := q) (s := s) ⟨⟨.of_eq rfl rfl, hq, rfl, fun _ => rfl, id, .inl, ?_,
      fun _ => .inl, ?_, nofun⟩, rfl, ?_, .inl rfl⟩
    · split
      next hlive => exact .inr ⟨hlive, rfl, .inr rfl⟩
      · exact .inl rfl
    · rintro t (ht | ⟨m, hm⟩)
      · exact .inl (.inl ht)
      · cases hm
    · simp [WriterQueue.pending, Writer.held]

lemma Ordered.publish (hdropped : s.dropped = false) (hw : s.writer = .dialed m conn) :
    (l.publish q s m conn).Ordered := by
  have hlen : (l.publish q s m conn).senders.length = l.senders.length + 1 := length_append
  refine h.advance ⟨⟨(l.enters_publish q s m conn).placeMoves, hq, rfl, by simp [hw], id, .inl, .inl rfl,
    fun _ _ => .inr hdropped, ?_, nofun⟩, rfl, ?_, .inl rfl⟩
  · rintro t (ht | ⟨m', hm'⟩)
    · have : l.senders.length = t := Option.some.inj ht
      exact .inr (.inr (by omega))
    · have : l.senders.length = t := (Writer.chosen.inj hm').2
      exact .inr (.inr (by omega))
  · simp [WriterQueue.pending, hw, Writer.held]

lemma Ordered.useSender (hdropped : s.dropped = false) (hw : s.writer = .chosen m t)
    (hwriter : writer = .head ∨ writer = .writing m t) :
    Ordered { l with queues := l.queues.set q { s with sender := some t, writer := writer } } := by
  refine h.advance ⟨⟨.of_eq rfl rfl, hq, rfl, by simp [hw], id, .inl, .inl rfl,
    fun _ _ => .inr hdropped, ?_, ?_⟩, rfl, ?_, .inl rfl⟩
  · rintro t' (ht | ⟨m', hm'⟩)
    · cases ht
      exact .inl (.inr ⟨m, hw⟩)
    · rcases hwriter with rfl | rfl <;> cases hm'
  · rintro m' t' hm'
    rcases hwriter with rfl | rfl
    · cases hm'
    · obtain ⟨rfl, rfl⟩ := Writer.writing.inj hm'
      exact .inr ⟨rfl, hdropped, hw⟩
  · rcases hwriter with rfl | rfl <;> simp [WriterQueue.pending, hw, Writer.held]

end

/-! ### Writes -/

lemma writeFrame_writes (l : PeerLink) (t stream : ℕ) (m : QueuedMessage) (outcome : SendOutcome) :
    (l.writeFrame t stream m outcome).1.writes = l.writes ∨
      (l.writeFrame t stream m outcome).1.writes = l.writes ++
        [⟨t, m.msg.topic, stream, m.number, isDisconnect m.msg.message, l.epoch, l.hasSingleConn⟩] := by
  unfold writeFrame
  split
  · exact .inl rfl
  · refine .inr ?_
    rw [writes, filterMap_append]
    rfl

lemma openStream_writes (l : PeerLink) (t : ℕ) (topic : TopicID) :
    (l.openStream t topic).writes = l.writes := by
  rw [writes, openStream, filterMap_append]
  exact append_nil _

/-- **A sender writes the message to its stream of the topic, or to a new one**, if its connection is
open. -/
theorem send_writes (l : PeerLink) (t : ℕ) (m : QueuedMessage) (outcome : SendOutcome) :
    (l.send t m outcome).1.writes = l.writes ∨
      (l.send t m outcome).1.writes = l.writes ++ [l.nextWrite t m] ∧
        ∃ sd, l.senders[t]? = some sd ∧ l.isOpen sd.conn = true := by
  unfold send nextWrite streamAt
  split
  · exact .inl rfl
  next sd hsd =>
    rw [hsd, Option.bind_some]
    split
    · exact .inl rfl
    next hopen =>
      rw [Bool.not_eq_true, Bool.not_eq_false'] at hopen
      split
      next stream hstream =>
        rw [hstream]
        exact (l.writeFrame_writes t stream m outcome).imp_right fun hwrites => ⟨hwrites, sd, rfl, hopen⟩
      next hstream =>
        rw [hstream]
        split
        · exact .inl rfl
        · rw [← l.openStream_writes t m.msg.topic]
          exact (writeFrame_writes _ t l.nextStream m outcome).imp_right
            fun hwrites => ⟨hwrites, sd, rfl, hopen⟩

lemma OnlyStreams.queues (h : OnlyStreams l l') :
    l'.queues = l.queues ∧ l'.sendQueue = l.sendQueue ∧ l'.nextNumber = l.nextNumber := by
  obtain ⟨_, _, _, rfl, -⟩ := h
  exact ⟨rfl, rfl, rfl⟩

lemma Ordered.send (h : l.Ordered) (hq : l.queues[q]? = some s) (hw : s.writer = .writing m t)
    (outcome : SendOutcome) (hheld : writer.held = none) (hplain : writer.chosen? = none) :
    ((l.send t m outcome).1.setWriter q writer).Ordered := by
  have hstreams := l.onlyStreams_send t m outcome
  obtain ⟨hqueues, hsendQueue, hnextNumber⟩ := hstreams.queues
  have hset : ((l.send t m outcome).1.setWriter q writer).queues =
      l.queues.set q { s with writer := writer } := by
    rw [PeerLink.setWriter, hqueues]
    exact modify_eq_set _ hq
  have hpending : s.pending = m.number :: WriterQueue.pending { s with writer := writer } := by
    simp only [WriterQueue.pending, hw, hheld]
    rfl
  refine h.advance ⟨.ofWriter (hstreams.keeps.trans (keeps_setWriter _ q writer)).placeMoves hq hset
    hsendQueue rfl rfl (by simp [hw]) (.inl hplain), hnextNumber, ?_, ?_⟩
  · rw [hpending]
    exact sublist_cons_self _ _
  · rcases l.send_writes t m outcome with hwrites | ⟨hwrites, -⟩
    · exact .inl hwrites
    · exact .inr ⟨m, l.nextWrite t m, hw, hheld, hpending, hwrites, rfl⟩

lemma sameQueues_closeSender (l : PeerLink) (t : ℕ) : SameQueues l (l.closeSender t) := by
  refine ⟨(l.keeps_closeSender t).placeMoves, rfl, rfl, rfl, ?_⟩
  rw [writes, closeSender, filterMap_append]
  exact append_nil _

lemma Ordered.write (h : l.Ordered) (q : ℕ) (choice : Choice) : (l.write q choice).Ordered := by
  unfold PeerLink.write
  cases hq : l.queues[q]? with
  | none => exact h
  | some s =>
    obtain ⟨items, sender, dropped, writer⟩ := s
    cases writer with
    | head => exact h.takeItem hq rfl
    | disconnecting =>
      dsimp only
      split
      · exact h.setWriter hq nofun (.inl rfl) (.inl rfl)
      · exact (h.same l.aside_unregister.sameQueues).setWriter hq nofun (.inl rfl) (.inl rfl)
    | closing t =>
      exact (h.same (l.sameQueues_closeSender t)).setWriter hq nofun (.inl rfl) (.inl rfl)
    | taken m =>
      dsimp only
      split
      next t hplace => exact h.setWriter hq nofun (.inr rfl) (.inr ⟨m, t, rfl, hplace⟩)
      · split
        · exact h.setWriter hq nofun (.inr rfl) (.inl rfl)
        · exact h.setWriter hq nofun (.inl rfl) (.inl rfl)
    | dialing m =>
      dsimp only
      split
      · exact (h.same l.aside_openConn.sameQueues).setWriter hq nofun (.inr rfl) (.inl rfl)
      · exact h.setWriter hq nofun (.inl rfl) (.inl rfl)
    | dialed m conn =>
      cases dropped with
      | true => exact h.setWriter hq nofun (.inl rfl) (.inl rfl)
      | false => exact h.publish hq rfl rfl
    | abandoning conn =>
      have hsame := (l.aside_closeConn conn).sameQueues
      rw [← hsame.queues] at hq
      exact (h.same hsame).setWriter hq nofun (.inl rfl) (.inl rfl)
    | chosen m t =>
      cases dropped with
      | true => exact h.setWriter hq nofun (.inl rfl) (.inl rfl)
      | false =>
        refine h.useSender hq rfl rfl ?_
        split
        · exact .inl rfl
        · exact .inr rfl
    | writing m t =>
      dsimp only
      split
      · exact h.send hq rfl choice.outcome rfl rfl
      · exact h.send hq rfl choice.outcome rfl rfl
    | failed =>
      have hlt := (List.getElem?_eq_some_iff.mp hq).1
      rw [← (l.drops_dropPeer q).length_queues] at hlt
      exact (h.drops (l.drops_dropPeer q)).setWriter (getElem?_eq_getElem hlt) (fun _ => rfl)
        (.inl rfl) (.inl rfl)
    | done => exact h

theorem Ordered.step (h : l.Ordered) (action : LinkAction) : (l.step action).Ordered := by
  cases action with
  | incoming => exact h.same { l.aside_openConn.sameQueues with }
  | ends conn => exact h.same (l.aside_closeConn conn).sameQueues
  | accept i => exact h.same (l.aside_accept i).sameQueues
  | acceptReturns i => exact h.same (l.aside_acceptReturns i).sameQueues
  | enqueue msg generation =>
    rw [PeerLink.step]
    refine h.enqueue (fun k n hn => ?_) true
    exact (Option.some.inj hn).symm
  | enqueueDisconnect =>
    rw [PeerLink.step]
    refine h.enqueue (fun k n hn => ?_) false
    cases hn
  | disconnect => exact h.same l.aside_disconnect.sameQueues
  | write q choice => exact h.write q choice
  | timeout q => exact h.drops (l.drops_dropPeer q)
  | abandonQueue => exact h.drops l.drops_abandonQueue
  | closeConn t =>
    rw [PeerLink.step]
    split
    · dsimp only
      split
      · exact h.same ⟨.of_eq rfl rfl, rfl, rfl, rfl, rfl⟩
      · exact h.same { (aside_closeConn { l with closeConns := _ } _).sameQueues with }
    · exact h
  | closeSender t =>
    rw [PeerLink.step]
    split
    · exact h.same { sameQueues_closeSender { l with closeSenders := _ } t with }
    · exact h
  | shutdown => exact h.same ⟨.of_eq rfl rfl, rfl, rfl, rfl, rfl⟩
  | shutdownEnd => exact h.shutdownEnd

/-- **Over any run, the messages that go through one sender are written in the order in which they were
queued.** -/
theorem pairwise_writes (actions : List LinkAction) :
    (actions.foldl step newPeerLink).writes.Pairwise
      fun w w' => w.sender = w'.sender → w.number < w'.number :=
  (eachState_of_inv Ordered (fun _ action h => h.step action) ordered_newPeerLink actions actions
    prefix_rfl).numbered.written

/-- **A peer has one live queue at most**, its own: no other has a writer at work and is not dropped, and its
own is not dropped. -/
theorem live_queue_unique (actions : List LinkAction) :
    EachState step (fun l => ∀ (q : ℕ) s, l.queues[q]? = some s → (l.sendQueue = some q → s.dropped = false) ∧
      (s.dropped = false → s.writer ≠ .done → l.sendQueue = some q)) newPeerLink actions := by
  intro pre hpre q s hq
  have hrun := eachState_of_inv Ordered (fun _ action h => h.step action) ordered_newPeerLink actions pre hpre
  have hlane := hrun.lanes.queue q s hq
  refine ⟨hlane.live, fun hkept hwriter => ?_⟩
  by_contra hother
  rcases hlane.ended hother with hdropped | hdone
  · cases hkept.symm.trans hdropped
  · exact hwriter hdone

end PeerLink

end Iroh.Gossip
