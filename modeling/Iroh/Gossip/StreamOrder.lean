import Iroh.Gossip.QueueOrder

/-!
# The order of the messages on a connection

Reference: `gossip/gossip.go` (`Sender`), `gossip/topic.go` (`send`, `connect`, `Accept`).

A receiver reads the messages of one stream in order, and different streams in no order.  A sender has one
stream for each topic, from the first message until it is closed (`Streams`), and it is written in queue
order.  But a connection may have several senders: one that was dialled is registered by `connect` and again
by its `Accept`.
-/

namespace Iroh.Gossip

open GossipProto List

def StreamEvent.Closes (t : ℕ) (topic : TopicID) : StreamEvent → Prop
  | .opened _ _ _ => False
  | .wrote w => w.disconnect = true ∧ w.sender = t ∧ w.topic = topic
  | .closed s => s = t

/-- Two messages of one topic were written while the peer had the same single connection. -/
def Written.Together (w w' : Written) : Prop :=
  w.epoch = w'.epoch ∧ w.single = true ∧ w'.single = true ∧ w.topic = w'.topic

namespace PeerLink

variable {l l' : PeerLink}

/-- While the peer has a single connection, the messages of a topic are written to one stream, in queue
order. -/
def InOrder (l : PeerLink) : Prop :=
  l.writes.Pairwise fun w w' => w.Together w' → w.stream = w'.stream ∧ w.number < w'.number

/-- When a message is written, those of its topic that were written before it on the same single
connection went through the same sender, and the sender's stream was not closed since. -/
def SameSender (l : PeerLink) (action : LinkAction) : Prop :=
  ∀ w', (l.step action).writes = l.writes ++ [w'] →
    ∀ pre w post, l.events = pre ++ .wrote w :: post → w.Together w' →
      w.sender = w'.sender ∧ ∀ e ∈ .wrote w :: post, ¬e.Closes w.sender w.topic

/-! ## Streams -/

/-- A stream has one sender and topic, and is kept until it is closed. -/
structure Streams (l : PeerLink) : Prop where
  lt : ∀ t topic n, l.streamAt t topic = some n → n < l.nextStream
  unique : ∀ t t' topic topic' n, l.streamAt t topic = some n → l.streamAt t' topic' = some n →
    t = t' ∧ topic = topic'
  written_lt : ∀ w, .wrote w ∈ l.events → w.stream < l.nextStream
  kept : ∀ pre w post, l.events = pre ++ .wrote w :: post → ∀ t topic,
    l.streamAt t topic = some w.stream ↔
      t = w.sender ∧ topic = w.topic ∧ ∀ e ∈ .wrote w :: post, ¬e.Closes t topic

lemma streams_newPeerLink : newPeerLink.Streams := by
  constructor
  · intro t topic n hn
    cases hn
  · intro t t' topic topic' n hn
    cases hn
  · intro w hw
    cases hw
  · intro pre w post heq
    cases pre <;> cases heq

lemma concat_eq_append_cons {α : Type*} {as pre post : List α} {a b : α}
    (h : as ++ [b] = pre ++ a :: post) :
    b = a ∧ as = pre ∧ post = [] ∨ ∃ post', post = post' ++ [b] ∧ as = pre ++ a :: post' := by
  rcases eq_nil_or_concat' post with rfl | ⟨post', c, rfl⟩
  · obtain ⟨has, hb⟩ := append_inj' h rfl
    exact .inl ⟨(cons.inj hb).1, has, rfl⟩
  · rw [← cons_append, ← append_assoc] at h
    obtain ⟨has, hb⟩ := append_inj' h rfl
    obtain rfl := (cons.inj hb).1
    exact .inr ⟨post', rfl, has⟩

lemma Streams.same (h : l.Streams) (hsame : SameStreams l l') : l'.Streams := by
  constructor
  · simp only [hsame.streamAt, hsame.nextStream]
    exact h.lt
  · simp only [hsame.streamAt]
    exact h.unique
  · rw [hsame.events, hsame.nextStream]
    exact h.written_lt
  · simp only [hsame.streamAt, hsame.events]
    exact h.kept

lemma Streams.event (h : l.Streams) (hevents : l'.events = l.events ++ [e])
    (hnext : l'.nextStream = l.nextStream)
    (hclosed : ∀ t topic, e.Closes t topic → l'.streamAt t topic = none)
    (hkept : ∀ t topic, ¬e.Closes t topic → l'.streamAt t topic = l.streamAt t topic)
    (hwrote : ∀ w, e = .wrote w → l.streamAt w.sender w.topic = some w.stream) : l'.Streams := by
  have hback : ∀ {t topic n}, l'.streamAt t topic = some n →
      ¬e.Closes t topic ∧ l.streamAt t topic = some n := by
    intro t topic n hn
    by_cases hc : e.Closes t topic
    · rw [hclosed t topic hc] at hn
      cases hn
    · exact ⟨hc, hkept t topic hc ▸ hn⟩
  constructor
  · intro t topic n hn
    rw [hnext]
    exact h.lt t topic n (hback hn).2
  · intro t t' topic topic' n hn hn'
    exact h.unique t t' topic topic' n (hback hn).2 (hback hn').2
  · intro w hw
    rw [hevents, mem_append, mem_singleton] at hw
    rw [hnext]
    rcases hw with hw | hw
    · exact h.written_lt w hw
    · exact h.lt _ _ _ (hwrote w hw.symm)
  · intro pre w post hsplit t topic
    rw [hevents] at hsplit
    rcases concat_eq_append_cons hsplit with ⟨rfl, -, rfl⟩ | ⟨post', rfl, hbefore⟩
    · -- the message that was just written
      rw [forall_mem_singleton]
      constructor
      · intro hn
        obtain ⟨hc, hn⟩ := hback hn
        obtain ⟨rfl, rfl⟩ := h.unique _ _ _ _ _ hn (hwrote w rfl)
        exact ⟨rfl, rfl, hc⟩
      · rintro ⟨rfl, rfl, hc⟩
        rw [hkept _ _ hc]
        exact hwrote w rfl
    · rw [← cons_append, forall_mem_append, forall_mem_singleton, ← and_assoc, ← and_assoc,
        and_assoc (a := t = w.sender), ← h.kept pre w post' hbefore t topic]
      constructor
      · intro hn
        exact (hback hn).symm
      · rintro ⟨hn, hc⟩
        rw [hkept t topic hc]
        exact hn

lemma Streams.opened (h : l.Streams) (hevents : l'.events = l.events ++ [.opened t topic l.nextStream])
    (hnext : l'.nextStream = l.nextStream + 1) (hnone : l.streamAt t topic = none)
    (hstream : ∀ t' topic', l'.streamAt t' topic' =
      if t' = t ∧ topic' = topic then some l.nextStream else l.streamAt t' topic') : l'.Streams := by
  have hback : ∀ {t' topic' n}, l'.streamAt t' topic' = some n →
      t' = t ∧ topic' = topic ∧ n = l.nextStream ∨ l.streamAt t' topic' = some n := by
    intro t' topic' n hn
    rw [hstream] at hn
    split at hn
    next hnew => exact .inl ⟨hnew.1, hnew.2, (Option.some.inj hn).symm⟩
    · exact .inr hn
  have hold : ∀ {t' topic' n}, l.streamAt t' topic' = some n → l'.streamAt t' topic' = some n := by
    intro t' topic' n hn
    rw [hstream, if_neg]
    · exact hn
    · rintro ⟨rfl, rfl⟩
      exact Option.some_ne_none n (hn.symm.trans hnone)
  constructor
  · intro t' topic' n hn
    rw [hnext]
    rcases hback hn with ⟨-, -, rfl⟩ | hn
    · exact Nat.lt_succ_self _
    · exact (h.lt t' topic' n hn).trans (Nat.lt_succ_self _)
  · intro t₁ t₂ topic₁ topic₂ n hn₁ hn₂
    rcases hback hn₁ with ⟨rfl, rfl, rfl⟩ | hold₁ <;> rcases hback hn₂ with ⟨rfl, rfl, hn⟩ | hold₂
    · exact ⟨rfl, rfl⟩
    · exact absurd (h.lt _ _ _ hold₂) (Nat.lt_irrefl _)
    · exact absurd (h.lt _ _ _ hold₁) (hn ▸ Nat.lt_irrefl _)
    · exact h.unique _ _ _ _ _ hold₁ hold₂
  · intro w hw
    rw [hevents, mem_append] at hw
    rw [hnext]
    exact (h.written_lt w (hw.resolve_right nofun)).trans (Nat.lt_succ_self _)
  · intro pre w post hsplit t' topic'
    rw [hevents] at hsplit
    rcases concat_eq_append_cons hsplit with ⟨heq, -, -⟩ | ⟨post', rfl, hbefore⟩
    · cases heq
    · have hlt : w.stream < l.nextStream := h.written_lt w (by rw [hbefore]; simp)
      have hiff : l'.streamAt t' topic' = some w.stream ↔ l.streamAt t' topic' = some w.stream := by
        refine ⟨fun hn => (hback hn).resolve_left ?_, hold⟩
        rintro ⟨-, -, heq⟩
        exact hlt.ne heq
      rw [hiff, h.kept pre w post' hbefore t' topic', ← cons_append, forall_mem_append,
        forall_mem_singleton]
      exact and_congr_right' (and_congr_right' (and_iff_left not_false).symm)

/-! ## What an action does to streams -/

lemma streamAt_of_modify (l l' : PeerLink)
    (hsenders : l'.senders = l.senders.modify s f) (t : ℕ) (topic : TopicID) : l'.streamAt t topic =
      if s = t then l.senders[t]?.bind fun sd => (f sd).streams.get? topic else l.streamAt t topic := by
  rw [streamAt, streamAt, hsenders, getElem?_modify]
  cases l.senders[t]? with
  | none => simp
  | some sd => split <;> rfl

lemma Streams.closeSender (h : l.Streams) (s : ℕ) : (l.closeSender s).Streams := by
  have hstream := streamAt_of_modify l (l.closeSender s) rfl
  refine h.event (e := .closed s) rfl rfl ?_ ?_ nofun
  · rintro t topic rfl
    rw [hstream, if_pos rfl]
    cases l.senders[s]? <;> rfl
  · intro t topic hne
    rw [hstream]
    exact if_neg hne

lemma streams_openStream (h : l.Streams) (hsd : l.senders[t]? = some sd)
    (hnone : sd.streams.get? topic = none) :
    (l.openStream t topic).Streams ∧ (l.openStream t topic).streamAt t topic = some l.nextStream := by
  have hstream : ∀ t' topic', (l.openStream t topic).streamAt t' topic' =
      if t' = t ∧ topic' = topic then some l.nextStream else l.streamAt t' topic' := by
    intro t' topic'
    rw [streamAt_of_modify l (l.openStream t topic) rfl]
    by_cases ht : t = t'
    · subst ht
      rw [streamAt, hsd]
      simp
    · rw [if_neg ht, if_neg fun h => ht h.1.symm]
  refine ⟨h.opened rfl rfl ?_ hstream, ?_⟩
  · rw [streamAt, hsd]
    exact hnone
  · rw [hstream, if_pos ⟨rfl, rfl⟩]

lemma Streams.writeFrame (h : l.Streams)
    (hstream : l.streamAt t m.msg.topic = some stream) (outcome : SendOutcome) :
    (l.writeFrame t stream m outcome).1.Streams := by
  unfold PeerLink.writeFrame
  split
  · exact h
  · refine h.event rfl rfl ?_ ?_ ?_
    · rintro t' topic ⟨hdisconnect, rfl, rfl⟩
      rw [streamAt_of_modify l _ rfl, if_pos rfl]
      cases l.senders[t]? with
      | none => rfl
      | some sd => simp [show isDisconnect m.msg.message = true from hdisconnect]
    · intro t' topic hnot
      rw [streamAt_of_modify l _ rfl]
      split
      next heq =>
        subst heq
        congr 1
        funext sd
        split
        next hdisconnect =>
          rw [GoMap.get?_delete, if_neg fun heq => hnot ⟨hdisconnect, rfl, heq.symm⟩]
        · rfl
      · rfl
    · intro w hw
      obtain rfl := StreamEvent.wrote.inj hw
      exact hstream

lemma Streams.send (h : l.Streams) (t : ℕ) (m : QueuedMessage) (outcome : SendOutcome) :
    (l.send t m outcome).1.Streams := by
  unfold PeerLink.send
  split
  · exact h
  next sd hsd =>
    split
    · exact h
    · split
      next stream hstream =>
        refine h.writeFrame ?_ outcome
        rw [streamAt, hsd]
        exact hstream
      next hnone =>
        split
        · exact h
        · obtain ⟨hopen, hstream⟩ := streams_openStream h hsd hnone
          exact hopen.writeFrame hstream outcome

lemma epoch_trans {l'' : PeerLink} (h : l'.conns = l.conns ∧ l'.epoch = l.epoch ∨ l.epoch < l'.epoch)
    (h' : l''.conns = l'.conns ∧ l''.epoch = l'.epoch ∨ l'.epoch < l''.epoch) :
    l''.conns = l.conns ∧ l''.epoch = l.epoch ∨ l.epoch < l''.epoch := by
  rcases h with ⟨hconns, hepoch⟩ | hlt
  · rwa [hconns, hepoch] at h'
  · rcases h' with ⟨-, hepoch'⟩ | hlt'
    · exact .inr (hepoch' ▸ hlt)
    · exact .inr (hlt.trans hlt')

lemma SameStreams.trans (h : SameStreams l l') (h' : SameStreams l' l'') : SameStreams l l'' :=
  ⟨fun t topic => (h'.streamAt t topic).trans (h.streamAt t topic), h'.nextStream.trans h.nextStream,
    h'.events.trans h.events, epoch_trans h.epoch h'.epoch⟩

lemma sameStreams_enqueue (l : PeerLink) (item : ℕ → SendItem) (start : Bool) :
    SameStreams l (l.enqueue item start) := by
  unfold enqueue
  split
  · split <;> exact .of_eq rfl
  · split
    · exact .of_eq rfl
    · split <;> exact .of_eq rfl

lemma sameStreams_dropQueueLocked (l : PeerLink) (q : ℕ) (s : WriterQueue) :
    SameStreams l (l.dropQueueLocked q s) := by
  unfold dropQueueLocked
  dsimp only
  split <;> exact .of_eq rfl

lemma Drops.sameStreams (h : Drops l l') : SameStreams l l' := by
  rcases h with rfl | ⟨q, s, -, -, rfl⟩
  · exact .of_eq rfl
  · exact l.sameStreams_dropQueueLocked q s

lemma sameStreams_shutdownEnd (l : PeerLink) : SameStreams l l.shutdownEnd := by
  rcases l.shutdownEnd_cases with heq | ⟨l', hdrops, heq⟩
  · rw [heq]
    exact .of_eq rfl
  · rw [heq]
    exact hdrops.sameStreams.trans l'.aside_disconnect.toSameStreams

lemma sameStreams_setWriter (l : PeerLink) (q : ℕ) (writer : Writer) :
    SameStreams l (l.setWriter q writer) :=
  .of_eq rfl

def StreamStep (l l' : PeerLink) : Prop :=
  SameStreams l l' ∨ (∃ t, SameStreams (l.closeSender t) l') ∨
    ∃ t m outcome, SameStreams (l.send t m outcome).1 l'

lemma streamStep_write (l : PeerLink) (q : ℕ) (choice : Choice) : StreamStep l (l.write q choice) := by
  unfold write
  cases l.queues[q]? with
  | none => exact .inl (.of_eq rfl)
  | some s =>
    obtain ⟨items, sender, dropped, writer⟩ := s
    cases writer with
    | head =>
      refine .inl ?_
      dsimp only [takeItem]
      split <;> exact .of_eq rfl
    | closing t => exact .inr (.inl ⟨t, sameStreams_setWriter _ q _⟩)
    | taken m =>
      refine .inl ?_
      dsimp only
      split <;> exact l.sameStreams_setWriter q _
    | dialing m =>
      refine .inl ?_
      dsimp only
      split
      · exact { l.aside_openConn with }
      · exact l.sameStreams_setWriter q _
    | dialed m conn =>
      refine .inl ?_
      dsimp only
      split
      · exact l.sameStreams_setWriter q _
      · exact (l.sameStreams_register conn).trans (.of_eq rfl)
    | abandoning conn =>
      exact .inl ((l.aside_closeConn conn).toSameStreams.trans (sameStreams_setWriter _ q _))
    | writing m t => exact .inr (.inr ⟨t, m, choice.outcome, sameStreams_setWriter _ q _⟩)
    | failed => exact .inl ((l.drops_dropPeer q).sameStreams.trans (sameStreams_setWriter _ q _))
    | done => exact .inl (.of_eq rfl)
    | _ =>
      refine .inl ?_
      dsimp only
      split <;> exact .of_eq rfl

theorem streamStep_step (l : PeerLink) (action : LinkAction) : StreamStep l (l.step action) := by
  cases action with
  | incoming => exact .inl { l.aside_openConn with }
  | ends conn => exact .inl (l.aside_closeConn conn).toSameStreams
  | accept i => exact .inl (l.aside_accept i).toSameStreams
  | acceptReturns i => exact .inl (l.aside_acceptReturns i).toSameStreams
  | disconnect => exact .inl l.aside_disconnect.toSameStreams
  | write q choice => exact l.streamStep_write q choice
  | timeout q => exact .inl (l.drops_dropPeer q).sameStreams
  | abandonQueue => exact .inl l.drops_abandonQueue.sameStreams
  | closeConn t =>
    refine .inl ?_
    rw [step]
    split
    · dsimp only
      split
      · exact .of_eq rfl
      · exact { aside_closeConn { l with closeConns := _ } _ with }
    · exact .of_eq rfl
  | closeSender t =>
    rw [step]
    split
    · exact .inr (.inl ⟨t, .of_eq rfl⟩)
    · exact .inl (.of_eq rfl)
  | shutdown => exact .inl (.of_eq rfl)
  | shutdownEnd => exact .inl l.sameStreams_shutdownEnd
  | _ =>
    rw [step]
    exact .inl (l.sameStreams_enqueue _ _)

theorem Streams.step (h : l.Streams) (action : LinkAction) : (l.step action).Streams := by
  rcases l.streamStep_step action with hsame | ⟨t, hsame⟩ | ⟨t, m, outcome, hsame⟩
  · exact h.same hsame
  · exact (h.closeSender t).same hsame
  · exact (h.send t m outcome).same hsame

lemma step_writes (l : PeerLink) (action : LinkAction) : (l.step action).writes = l.writes ∨
      ∃ t m, (l.step action).writes = l.writes ++ [l.nextWrite t m] ∧
        ∃ sd, l.senders[t]? = some sd ∧ l.isOpen sd.conn = true := by
  rcases l.streamStep_step action with hsame | ⟨t, hsame⟩ | ⟨t, m, outcome, hsame⟩
  · exact .inl hsame.writes
  · exact .inl (hsame.writes.trans (l.sameQueues_closeSender t).writes)
  · rw [hsame.writes]
    exact (l.send_writes t m outcome).imp_right fun hwrites => ⟨t, m, hwrites⟩

/-! ## The order -/

lemma Streams.stream_eq_iff (h : l.Streams) (hsplit : l.events = pre ++ .wrote w :: post)
    (htopic : w.topic = m.msg.topic) : w.stream = (l.nextWrite t m).stream ↔
      w.sender = t ∧ ∀ e ∈ .wrote w :: post, ¬e.Closes w.sender w.topic := by
  have hkept := h.kept pre w post hsplit t m.msg.topic
  have hright : (t = w.sender ∧ m.msg.topic = w.topic ∧ ∀ e ∈ .wrote w :: post, ¬e.Closes t m.msg.topic) ↔
      w.sender = t ∧ ∀ e ∈ .wrote w :: post, ¬e.Closes w.sender w.topic := by
    rw [← htopic, eq_comm, and_iff_right rfl]
    exact and_congr_right fun hsender => by rw [hsender]
  rw [← hright, ← hkept, nextWrite]
  cases hstream : l.streamAt t m.msg.topic with
  | none =>
    have hlt : w.stream < l.nextStream := h.written_lt w (by rw [hsplit]; simp)
    exact iff_of_false hlt.ne nofun
  | some n => rw [Option.getD_some, Option.some.injEq, eq_comm]

lemma mem_writes : w ∈ l.writes ↔ ∃ pre post, l.events = pre ++ .wrote w :: post := by
  rw [← mem_iff_append, writes, mem_filterMap]
  constructor
  · rintro ⟨e, he, hw⟩
    cases e with
    | wrote w' =>
      cases hw
      exact he
    | _ => cases hw
  · exact fun hw => ⟨.wrote w, hw, rfl⟩

lemma inOrder_step (hstreams : l.Streams) (hordered : l.Ordered) (action : LinkAction) :
    (l.step action).InOrder ↔ l.InOrder ∧ l.SameSender action := by
  rcases l.step_writes action with hwrites | ⟨t, m, hwrites, -⟩
  · have hsame : l.SameSender action := by
      intro w' hw'
      rw [hwrites] at hw'
      exact absurd hw' (by simp)
    rw [InOrder, hwrites]
    exact (and_iff_left hsame).symm
  · have hnumbers := (hordered.step action).numbered.written
    rw [hwrites, pairwise_append] at hnumbers
    rw [InOrder, hwrites, pairwise_append]
    refine and_congr_right fun _ => ?_
    rw [and_iff_right (pairwise_singleton _ _)]
    constructor
    · intro h w' hw' pre w post hsplit htogether
      rw [hwrites] at hw'
      obtain rfl := (cons.inj (append_cancel_left hw')).1
      have hstream := (h w (mem_writes.mpr ⟨pre, post, hsplit⟩) _ (mem_singleton_self _) htogether).1
      exact (hstreams.stream_eq_iff hsplit htogether.2.2.2).mp hstream
    · intro h w hw w' hw' htogether
      obtain rfl := mem_singleton.mp hw'
      obtain ⟨pre, post, hsplit⟩ := mem_writes.mp hw
      have hsender := h _ hwrites pre w post hsplit htogether
      exact ⟨(hstreams.stream_eq_iff hsplit htogether.2.2.2).mpr hsender,
        hnumbers.2.2 w hw _ (mem_singleton_self _) hsender.1⟩

/-- **The messages of a topic on a single connection are written to one stream, in queue order, exactly
if they all go through the same sender and its stream is not closed in between.** -/
theorem one_stream_iff_same_sender (actions : List LinkAction) :
    (actions.foldl step newPeerLink).InOrder ↔ EachStep step SameSender newPeerLink actions := by
  have hiff := foldl_iff_eachStep (fun l : PeerLink => l.Streams ∧ l.Ordered)
    (fun _ action h => ⟨h.1.step action, h.2.step action⟩)
    (fun _ action h => inOrder_step h.1 h.2 action)
    ⟨streams_newPeerLink, ordered_newPeerLink⟩ actions
  rw [hiff]
  exact and_iff_right .nil

/-- The node dials the peer and writes a message.  Then `Accept` registers the connection again, and the
next message of the topic is written. -/
def registeredTwice : List LinkAction :=
  let msg : Message := ⟨.replicate 32 7, .gossip .prune⟩
  let go : LinkAction := .write 0 ⟨true, true, false, .sent⟩
  [.enqueue msg 0, go, go, go, go, go, go, .accept 0, .enqueue msg 0, go, go, go, go]

/-- The two messages are written to different streams of the one connection. -/
theorem message_on_second_stream : ¬(registeredTwice.foldl step newPeerLink).InOrder := by
  intro h
  have hwrites : (registeredTwice.foldl step newPeerLink).writes =
      [⟨0, .replicate 32 7, 0, 0, false, 1, true⟩, ⟨1, .replicate 32 7, 1, 1, false, 1, true⟩] := by
    decide
  rw [InOrder, hwrites, pairwise_pair] at h
  exact absurd (h ⟨rfl, rfl, rfl, rfl⟩).1 (by decide)

end PeerLink

end Iroh.Gossip
