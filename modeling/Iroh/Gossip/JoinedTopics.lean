import Iroh.Gossip.Actor
import Iroh.GossipProto.PeerTopics

/-!
# Joined topics and their subscribers

Reference: `gossip/topic.go` (`SubscribeWithOpts`, `JoinPeers`, `command`, `closeTopic`, `Shutdown`).

A topic is joined by `Subscribe` and quit by the `Close` of its last handle, each in one locked section.
`JoinPeers` sends its join in a section of its own, after checks on the handle made earlier.  If the last
handle closes in between, the command joins the topic again and nobody is left to quit it: the topic is
`late`.
-/

namespace Iroh.Gossip

open GossipProto List GoMap

namespace Actor

/-- The handles of each topic are the open ones, a topic without them has no entry, and none is left
after `Shutdown`.  The joined topics are those with handles and the late ones. -/
structure Accounted (a : Actor) : Prop where
  entered : ∀ t topic, t ∈ (a.subscribers topic).keys ↔ a.handles[t]? = some ⟨topic, false⟩
  nonempty : ∀ topic ∈ a.topics.keys, ∃ t, t ∈ (a.subscribers topic).keys
  retried : ∀ topic ∈ a.rejoins.keys, topic ∈ a.topics.keys
  closed : a.closed = true → ∀ topic, topic ∉ a.topics.keys
  joined_iff : ∀ topic, topic ∈ a.state.topics.keys ↔ topic ∈ a.topics.keys ∨ topic ∈ a.late.keys
  not_late : ∀ topic ∈ a.topics.keys, topic ∉ a.late.keys

variable {s : State} {t : ℕ} {hd : Handle}

lemma accounted_newGossip (hs : ∀ topic, topic ∉ s.topics.keys) : (newGossip s).Accounted where
  entered _ _ := by simp [newGossip, subscribers]
  nonempty _ h := absurd h not_mem_keys_empty
  retried _ h := absurd h not_mem_keys_empty
  closed _ _ := not_mem_keys_empty
  joined_iff topic := by simp [newGossip, hs topic]
  not_late _ h := absurd h not_mem_keys_empty

variable {a a' : Actor} {topic : TopicID} (env : Env)

lemma subscribers_of_not_mem (h : topic ∉ a.topics.keys) : a.subscribers topic = .empty := by
  rw [subscribers, get?_eq_none.mpr h, Option.getD_none]

lemma mem_topics_of_mem_subscribers (h : t ∈ (a.subscribers topic).keys) : topic ∈ a.topics.keys := by
  by_contra hnot
  rw [subscribers_of_not_mem hnot] at h
  exact not_mem_keys_empty h

namespace Accounted

variable (h : a.Accounted)
include h

lemma onlyQueues (ha : OnlyQueues a a') : a'.Accounted := by
  obtain ⟨_, _, _, _, _, rfl⟩ := ha
  exact { h with }

lemma queued (ha : Queued a a' peer item) : a'.Accounted := by
  rcases ha with ha | ha
  · exact h.onlyQueues ha
  · refine onlyQueues ?_ ha
    exact { h with }

lemma withCalls (calls : GoMap ℕ Call) (n : ℕ) :
    { a with calls := calls, nextCall := n }.Accounted := { h with }

lemma spawn (call : Call) : (a.spawn call).Accounted := h.withCalls _ _

lemma dispatchEvent (o : Output) (waiting : Option ℕ) :
    (a.dispatchEvent env o waiting).1.Accounted := by
  unfold Actor.dispatchEvent
  split
  · exact h.queued (a.queued_enqueue _ _ _ _)
  next topic ev _ =>
    rcases a.emit_eq env o topic ev with heq | ⟨_, heq⟩
    · rw [heq]
      exact h
    · rw [heq]
      exact { h with }
  · exact h.onlyQueues ⟨_, _, _, _, _, rfl⟩
  · exact h.queued (a.queued_enqueue _ _ _ _)
  · exact h

lemma handleLocked (hjoin : ∀ topic peers, ev.input = .command topic (.join peers) →
      topic ∈ a.topics.keys ∨ topic ∈ a.late.keys) (hquit : ∀ topic, ev.input ≠ .command topic .quit) :
    (a.handleLocked env ev).1.Accounted := by
  refine { h with joined_iff := fun topic => (State.mem_keys_handle _ _ _ _ _).trans ?_ }
  rw [and_iff_left (hquit topic), h.joined_iff]
  refine or_iff_left_of_imp ?_
  rintro ⟨peers, hinput⟩
  exact hjoin topic peers hinput

lemma handleAndDispatch (bounded : Bool) (hcommand : ∀ topic cmd, ev.input ≠ .command topic cmd) :
    (a.handleAndDispatch env ev bounded).Accounted :=
  spawn (h.handleLocked env (fun topic _ hinput => absurd hinput (hcommand topic _))
    fun topic => hcommand topic _) _

lemma rejoinLocked (hopen : topic ∈ a.topics.keys) (peers : List PeerID) :
    (a.rejoinLocked topic peers).Accounted := by
  rcases a.rejoinLocked_eq topic peers with heq | ⟨rejoins, _, _, hkeys, heq⟩
  · rw [heq]
    exact h
  · rw [heq]
    refine { h with retried := fun t ht => ?_ }
    rcases (hkeys t).mp ht with rfl | ht
    · exact hopen
    · exact h.retried t ht

end Accounted

/-! ## Subscribing -/

lemma addHandle_openTopic (a : Actor) (topic : TopicID) : ∃ topics generations nextGeneration,
      (∀ t, t ∈ topics.keys ↔ t = topic ∨ t ∈ a.topics.keys) ∧
      (∀ t, (topics.get? t).getD .empty = if t = topic then
        (a.subscribers topic).set a.handles.length () else a.subscribers t) ∧
      (a.openTopic topic).addHandle topic = { a with
        topics := topics
        generations := generations
        nextGeneration := nextGeneration
        handles := a.handles ++ [⟨topic, false⟩]
        late := a.late.delete topic } := by
  unfold openTopic
  split
  · refine ⟨_, _, _, fun t => mem_keys_set, fun t => ?_, rfl⟩
    rw [get?_set]
    split <;> rfl
  next hnew =>
    rw [GoMap.contains_iff] at hnew
    refine ⟨_, _, _, fun t => ?_, fun t => ?_, rfl⟩
    · rw [mem_keys_set, mem_keys_set, or_self_left]
    · rw [subscribers_of_not_mem hnew]
      simp only [subscribers, get?_set]
      split <;> rfl

lemma Accounted.addHandle (h : a.Accounted) (topic : TopicID) (hclosed : a.closed = false)
    (hs : ∀ t, t ∈ s.topics.keys ↔ t = topic ∨ t ∈ a.state.topics.keys) (emitted : List Output) :
    { (a.openTopic topic).addHandle topic with state := s, emitted := emitted }.Accounted := by
  obtain ⟨topics, generations, nextGeneration, hkeys, hsubs, heq⟩ := a.addHandle_openTopic topic
  rw [heq]
  constructor
  · intro i t
    show i ∈ ((topics.get? t).getD .empty).keys ↔ (a.handles ++ [⟨topic, false⟩])[i]? = _
    have hold := h.entered i t
    rw [hsubs]
    rcases Nat.lt_trichotomy i a.handles.length with hlt | rfl | hgt
    · rw [getElem?_append_left hlt, ← hold]
      split
      next ht => rw [mem_keys_set, or_iff_right hlt.ne, ht]
      · rfl
    · rw [getElem?_concat_length]
      rw [getElem?_eq_none le_rfl] at hold
      split
      next ht => simp [ht]
      next ht => simp [hold, Ne.symm ht]
    · rw [getElem?_eq_none (by simp; omega)]
      rw [getElem?_eq_none hgt.le] at hold
      split
      next ht => rw [mem_keys_set, or_iff_right hgt.ne', ← ht, hold]
      · rw [hold]
  · intro t ht
    show ∃ i, i ∈ ((topics.get? t).getD .empty).keys
    rw [hsubs]
    split
    · exact ⟨_, mem_keys_set.mpr (.inl rfl)⟩
    next hne => exact h.nonempty t (((hkeys t).mp ht).resolve_left hne)
  · exact fun t ht => (hkeys t).mpr (.inr (h.retried t ht))
  · exact fun hc => absurd hc (by simp [hclosed])
  · intro t
    refine (hs t).trans ?_
    rw [h.joined_iff, hkeys, mem_keys_delete]
    tauto
  · intro t ht hlate
    obtain ⟨hne, hlate⟩ := mem_keys_delete.mp hlate
    exact h.not_late t (((hkeys t).mp ht).resolve_left hne) hlate

lemma Accounted.subscribe (h : a.Accounted) (topic : TopicID) (peers : List PeerID) (now : Time) :
    (a.subscribe env topic peers now).Accounted := by
  unfold Actor.subscribe
  split
  · exact h
  next hclosed =>
    rw [Bool.not_eq_true] at hclosed
    obtain ⟨topics, generations, nextGeneration, hkeys, -, heq⟩ := a.addHandle_openTopic topic
    refine Accounted.spawn (Accounted.rejoinLocked (h.addHandle topic hclosed ?_ _) ?_ peers) _
    · intro t
      have hstate : ((a.openTopic topic).addHandle topic).state = a.state := by rw [heq]
      rw [State.mem_keys_handle, hstate]
      simp [or_comm, eq_comm (a := topic)]
    · rw [heq]
      exact (hkeys topic).mpr (.inl rfl)

/-! ## Closing -/

lemma handles_closeEvents_eq_open : (a.closeEvents t).handles[i]? = some ⟨topic, false⟩ ↔
      t ≠ i ∧ a.handles[i]? = some ⟨topic, false⟩ := by
  rw [closeEvents, getElem?_modify]
  split
  next hi => simp [hi]
  next hi => simp [hi]

lemma dropHandle_eq (a : Actor) (topic : TopicID) (t : ℕ) :
    a.dropHandle topic t = { a with topics := (a.dropHandle topic t).topics } := by
  unfold dropHandle
  split <;> rfl

lemma subscribers_dropHandle (a : Actor) (topic topic' : TopicID) (t : ℕ) :
    (a.dropHandle topic t).subscribers topic' =
      if topic' = topic then (a.subscribers topic).delete t else a.subscribers topic' := by
  unfold dropHandle subscribers
  cases hsubs : a.topics.get? topic with
  | none =>
    dsimp only
    split
    next ht =>
      rw [ht, hsubs]
      rfl
    · rfl
  | some subs =>
    rw [get?_set]
    split <;> rfl

lemma subscribers_forgetTopic (a : Actor) (topic topic' : TopicID) :
    (a.forgetTopic topic).subscribers topic' =
      if topic' = topic then .empty else a.subscribers topic' := by
  unfold forgetTopic subscribers
  rw [get?_delete]
  split <;> rfl

lemma mem_keys_dropHandle (a : Actor) (id topic : TopicID) (t : ℕ) :
    topic ∈ ((a.closeEvents t).dropHandle id t).topics.keys ↔ topic ∈ a.topics.keys := by
  unfold dropHandle
  cases hsubs : (a.closeEvents t).topics.get? id with
  | none => rfl
  | some subs =>
    refine mem_keys_set.trans (or_iff_right_of_imp ?_)
    rintro rfl
    exact mem_keys_iff.mpr ⟨subs, hsubs⟩

lemma Accounted.entered_dropHandle (h : a.Accounted) (ht : a.handles[t]? = some hd) (i : ℕ)
    (topic : TopicID) : i ∈ (((a.closeEvents t).dropHandle hd.id t).subscribers topic).keys ↔
      (a.closeEvents t).handles[i]? = some ⟨topic, false⟩ := by
  rw [subscribers_dropHandle, handles_closeEvents_eq_open, ← h.entered, ne_comm]
  split
  next htopic =>
    rw [htopic]
    exact mem_keys_delete
  next htopic =>
    refine (and_iff_right_of_imp ?_).symm
    rintro hi rfl
    have hget := (h.entered i topic).mp hi
    rw [ht, Option.some.injEq] at hget
    exact htopic (congrArg Handle.id hget).symm

lemma Accounted.dropHandle (h : a.Accounted) (ht : a.handles[t]? = some hd)
    (hlen : (((a.closeEvents t).dropHandle hd.id t).subscribers hd.id).len ≠ 0) :
    ((a.closeEvents t).dropHandle hd.id t).Accounted := by
  have hkeys := fun topic => mem_keys_dropHandle a hd.id topic t
  have hentered := h.entered_dropHandle ht
  have hnonempty : ∀ topic ∈ ((a.closeEvents t).dropHandle hd.id t).topics.keys,
      ∃ i, i ∈ (((a.closeEvents t).dropHandle hd.id t).subscribers topic).keys := by
    intro topic htopic
    by_cases hid : topic = hd.id
    · rw [ne_eq, len_eq_zero] at hlen
      simpa [hid] using hlen
    · rw [subscribers_dropHandle, if_neg hid]
      exact h.nonempty topic ((hkeys topic).mp htopic)
  rw [dropHandle_eq]
  refine ⟨hentered, hnonempty, ?_, ?_, ?_, ?_⟩
  · exact fun topic hr => (hkeys topic).mpr (h.retried topic hr)
  · exact fun hc topic hk => h.closed hc topic ((hkeys topic).mp hk)
  · exact fun topic => (h.joined_iff topic).trans (or_congr_left (hkeys topic).symm)
  · exact fun topic hk => h.not_late topic ((hkeys topic).mp hk)

lemma Accounted.forgetTopic (h : a.Accounted) (ht : a.handles[t]? = some hd)
    (hlen : (((a.closeEvents t).dropHandle hd.id t).subscribers hd.id).len = 0) {late : GoSet TopicID}
    (emitted : List Output) (hlate : ∀ topic ∈ late.keys, topic ∈ a.late.keys)
    (hs : ∀ topic, topic ∈ s.topics.keys ↔ topic ≠ hd.id ∧ topic ∈ a.topics.keys ∨ topic ∈ late.keys) :
    { ((a.closeEvents t).dropHandle hd.id t).forgetTopic hd.id with
      state := s, late := late, emitted := emitted }.Accounted := by
  have hkeys : ∀ topic, topic ∈ (((a.closeEvents t).dropHandle hd.id t).topics.delete hd.id).keys ↔
      topic ≠ hd.id ∧ topic ∈ a.topics.keys := by
    intro topic
    rw [mem_keys_delete, mem_keys_dropHandle]
  rw [len_eq_zero] at hlen
  have hentered : ∀ i topic,
      i ∈ ((((a.closeEvents t).dropHandle hd.id t).forgetTopic hd.id).subscribers topic).keys ↔
        (a.closeEvents t).handles[i]? = some ⟨topic, false⟩ := by
    intro i topic
    rw [subscribers_forgetTopic, ← h.entered_dropHandle ht]
    split
    next hid => exact iff_of_false not_mem_keys_empty (hid ▸ hlen i)
    · rfl
  have hnonempty : ∀ topic ∈ (((a.closeEvents t).dropHandle hd.id t).topics.delete hd.id).keys,
      ∃ i, i ∈ ((((a.closeEvents t).dropHandle hd.id t).forgetTopic hd.id).subscribers topic).keys := by
    intro topic htopic
    obtain ⟨hne, htopic⟩ := (hkeys topic).mp htopic
    rw [subscribers_forgetTopic, if_neg hne, subscribers_dropHandle, if_neg hne]
    exact h.nonempty topic htopic
  rw [dropHandle_eq]
  refine ⟨hentered, hnonempty, ?_, ?_, ?_, ?_⟩
  · intro topic hr
    obtain ⟨hne, hr⟩ := mem_keys_delete.mp hr
    exact (hkeys topic).mpr ⟨hne, h.retried topic hr⟩
  · exact fun hc topic hk => h.closed hc topic ((hkeys topic).mp hk).2
  · exact fun topic => (hs topic).trans (or_congr_left (hkeys topic).symm)
  · exact fun topic hk hl => h.not_late topic ((hkeys topic).mp hk).2 (hlate topic hl)

lemma Accounted.closeTopic (h : a.Accounted) (t : ℕ) (now : Time) :
    (a.closeTopic env t now).Accounted := by
  unfold Actor.closeTopic
  cases ht : a.handles[t]? with
  | none => exact h
  | some hd =>
    have hframe : ((a.closeEvents t).dropHandle hd.id t).closed = a.closed ∧
        ((a.closeEvents t).dropHandle hd.id t).state = a.state ∧
        ((a.closeEvents t).dropHandle hd.id t).late = a.late := by
      rw [dropHandle_eq]
      exact ⟨rfl, rfl, rfl⟩
    obtain ⟨hclosed, hstate, hlate⟩ := hframe
    dsimp only
    split
    next hlen => exact (h.dropHandle ht hlen).spawn _
    next hlen =>
      rw [not_not] at hlen
      split
      · -- after `Shutdown` there was no entry to take out
        rename_i hc
        have hempty := h.closed (hclosed ▸ hc)
        refine Accounted.spawn (h.forgetTopic ht hlen _ ?_ ?_) _
        · exact fun topic hl => hlate ▸ hl
        · intro topic
          rw [hstate, hlate, h.joined_iff]
          simp [hempty topic]
      · refine Accounted.spawn (h.forgetTopic ht hlen _ ?_ ?_) _
        · exact fun topic hl => hlate ▸ (mem_keys_delete.mp hl).2
        · intro topic
          rw [State.mem_keys_handle]
          show (topic ∈ ((a.closeEvents t).dropHandle hd.id t).state.topics.keys ∨ _) ∧ _ ↔
            _ ∨ topic ∈ (((a.closeEvents t).dropHandle hd.id t).late.delete hd.id).keys
          rw [hstate, hlate, h.joined_iff, mem_keys_delete]
          simp only [Input.command.injEq, reduceCtorEq, and_false, exists_false, or_false, ne_eq,
            and_true, eq_comm (a := topic)]
          tauto

/-! ## The other calls -/

lemma Accounted.joinPeersLocked (h : a.Accounted) (i t : ℕ) (peers : List PeerID) :
    (a.joinPeersLocked i t peers).Accounted := by
  unfold Actor.joinPeersLocked
  split
  · exact h
  next hd ht =>
    split
    · exact h.withCalls _ _
    next hopen =>
      have hd_eq : hd = ⟨hd.id, false⟩ := by
        rw [Bool.not_eq_true] at hopen
        rw [← hopen]
      have hmem := mem_topics_of_mem_subscribers ((h.entered t hd.id).mpr (hd_eq ▸ ht))
      exact (h.rejoinLocked hmem peers).withCalls _ _

lemma noteLate_eq (a : Actor) (topic : TopicID) (cmd : TopicCommand) :
    ∃ late, a.noteLate topic cmd = { a with late := late } ∧ ∀ t, t ∈ late.keys ↔ t ∈ a.late.keys ∨
        (t = topic ∧ t ∉ a.topics.keys ∧ ∃ peers, cmd = .join peers) := by
  unfold noteLate
  cases cmd with
  | join peers =>
    dsimp only
    split
    next hopen =>
      refine ⟨a.late, rfl, fun t => (or_iff_left ?_).symm⟩
      rintro ⟨rfl, hnot, -⟩
      exact hnot (contains_iff.mp hopen)
    next hnot =>
      rw [GoMap.contains_iff] at hnot
      refine ⟨_, rfl, fun t => ?_⟩
      rw [mem_keys_set, or_comm]
      refine or_congr_right ⟨?_, fun ht => ht.1⟩
      rintro rfl
      exact ⟨rfl, hnot, peers, rfl⟩
  | _ => exact ⟨a.late, rfl, by simp⟩

lemma Accounted.command (h : a.Accounted) (i : ℕ) (topic : TopicID) (cmd : HandleCommand)
    (now : Time) : (a.command env i topic cmd now).Accounted := by
  unfold Actor.command
  split
  · exact h.withCalls _ _
  · obtain ⟨late, heq, hlate⟩ := a.noteLate_eq topic cmd.1
    rw [heq]
    refine { h with joined_iff := fun t => ?_, not_late := fun t ht hl => ?_ }
    · refine (State.mem_keys_handle _ _ _ _ _).trans ?_
      show _ ↔ t ∈ a.topics.keys ∨ t ∈ late.keys
      have hquit : Input.command topic cmd.1 ≠ .command t .quit := by
        intro heq
        rw [Input.command.injEq] at heq
        exact cmd.2 heq.2
      rw [h.joined_iff, hlate, and_iff_left hquit]
      simp only [Input.command.injEq, eq_comm (a := topic)]
      by_cases ht : t ∈ a.topics.keys <;> simp [ht]
    · rcases (hlate t).mp hl with hl | ⟨-, hnot, -⟩
      · exact h.not_late t ht hl
      · exact hnot ht

lemma Accounted.queueJoins (generation : ℕ) (outs : List Output) (h : a.Accounted) :
    (outs.foldl (queueJoin generation) a).Accounted := by
  apply foldlRecOn (motive := Accounted) outs _ h
  intro a' h' o _
  unfold queueJoin
  split
  · exact h'.queued (a'.queued_queueLocked _ _ _)
  · exact h'

lemma Accounted.rejoin (h : a.Accounted) (topic : TopicID) (r : ℕ) (now : Time) :
    (a.rejoin env topic r now).Accounted := by
  have htimers : ∀ timers, { a with rejoinTimers := timers }.Accounted :=
    fun timers => h.onlyQueues ⟨_, _, _, _, _, rfl⟩
  unfold Actor.rejoin
  split
  · exact h
  · dsimp only
    split
    · exact htimers _
    next hr =>
      simp only [Bool.or_eq_true, decide_eq_true_eq, not_or, not_not] at hr
      split
      · exact { h with retried := fun t ht => h.retried t (mem_keys_delete.mp ht).2 }
      · split
        · exact htimers _
        · have hopen := h.retried topic (mem_keys_iff.mpr ⟨r, hr.2⟩)
          refine Accounted.spawn (Accounted.queueJoins _ _ ?_) _
          refine (htimers _).handleLocked env ?_ fun _ => by simp
          intro t peers hinput
          rw [Input.command.injEq] at hinput
          exact .inl (hinput.1 ▸ hopen)

/-! ## Shutdown -/

lemma foldl_closeEvents (ts : List ℕ) (a : Actor) :
    ∃ handles, ts.foldl closeEvents a = { a with handles := handles } ∧
      ∀ i topic, handles[i]? = some ⟨topic, false⟩ ↔ i ∉ ts ∧ a.handles[i]? = some ⟨topic, false⟩ := by
  induction ts generalizing a with
  | nil => exact ⟨a.handles, rfl, by simp⟩
  | cons t ts ih =>
    obtain ⟨handles, heq, hopen⟩ := ih (a.closeEvents t)
    refine ⟨handles, heq, fun i topic => ?_⟩
    rw [hopen, handles_closeEvents_eq_open, mem_cons, not_or, ne_comm, and_left_comm, and_assoc]

lemma foldl_shutdownTopic (now : Time) (order : List TopicID) (a : Actor) (out : List Output) :
    ∃ state emitted handles out', order.foldl (shutdownTopic env now) (a, out) =
        ({ a with state := state, emitted := emitted, handles := handles }, out') ∧
      (∀ t, t ∈ state.topics.keys ↔ t ∈ a.state.topics.keys ∧ t ∉ order) ∧
      ∀ i topic, handles[i]? = some ⟨topic, false⟩ ↔
        a.handles[i]? = some ⟨topic, false⟩ ∧ ∀ t ∈ order, i ∉ (a.subscribers t).keys := by
  induction order generalizing a out with
  | nil => exact ⟨_, _, _, _, rfl, by simp, by simp⟩
  | cons topic order ih =>
    obtain ⟨handles, heq, hopen⟩ := foldl_closeEvents (a.subscribers topic).keys
      (a.handleLocked env ⟨.command topic .quit, now⟩).1
    obtain ⟨state', emitted', handles', out', heq', hstate', hopen'⟩ :=
      ih { (a.handleLocked env ⟨.command topic .quit, now⟩).1 with handles := handles }
        (out ++ (a.handleLocked env ⟨.command topic .quit, now⟩).2)
    refine ⟨state', emitted', handles', out', ?_, fun t => ?_, fun i t => ?_⟩
    · exact (congrArg (fun q => order.foldl (shutdownTopic env now) (q, _)) heq).trans heq'
    · rw [hstate', mem_cons, not_or]
      refine (and_congr_left fun _ => State.mem_keys_handle _ _ _ _ _).trans ?_
      simp only [Input.command.injEq, reduceCtorEq, and_false, exists_false, or_false, ne_eq,
        and_true, eq_comm (a := topic)]
      exact and_assoc
    · rw [hopen', hopen, forall_mem_cons, and_comm (a := i ∉ _), and_assoc]
      rfl

lemma Accounted.shutdown (h : a.Accounted) (order : List TopicID) (now : Time) :
    (a.shutdown env order now).Accounted := by
  unfold Actor.shutdown
  split
  · exact h
  next horder =>
    simp only [Bool.or_eq_true, Bool.not_eq_true', decide_eq_false_iff_not, not_or, not_not] at horder
    obtain ⟨state, emitted, handles, out, heq, hstate, hopen⟩ :=
      foldl_shutdownTopic env now order { a with closed := true } []
    rw [heq]
    refine Accounted.spawn ?_ _
    constructor
    · refine fun i topic => iff_of_false not_mem_keys_empty fun hi => ?_
      -- an open handle is entered for its topic, and the loop has passed the topic
      obtain ⟨hi, hnot⟩ := (hopen i topic).mp hi
      have hmem := (h.entered i topic).mpr hi
      exact hnot topic (horder.2.mem_iff.mpr (mem_topics_of_mem_subscribers hmem)) hmem
    · exact fun _ ht => absurd ht not_mem_keys_empty
    · exact fun _ hr => absurd hr not_mem_keys_empty
    · exact fun _ _ => not_mem_keys_empty
    · intro topic
      rw [hstate, or_iff_right not_mem_keys_empty, horder.2.mem_iff]
      rw [h.joined_iff]
      constructor
      · exact fun hj => hj.1.resolve_left hj.2
      · exact fun hl => ⟨.inr hl, fun hk => h.not_late topic hk hl⟩
    · exact fun _ hk => absurd hk not_mem_keys_empty

/-! ## Whole runs -/

lemma Accounted.proceed (h : a.Accounted) (i : ℕ) (now : Time) : (a.proceed env i now).Accounted := by
  unfold Actor.proceed
  split
  · exact h
  · exact h.joinPeersLocked i _ _
  · exact h.command env i _ _ now
  · exact (h.withCalls _ _).onlyQueues (onlyQueues_finish _ _)
  · exact (h.dispatchEvent env _ _).withCalls _ _

theorem Accounted.step (h : a.Accounted) (action : Action) : (a.step env action).Accounted := by
  -- a handle that is open starts a call, and a closed one does nothing
  have hifOpen : ∀ t call, (a.ifOpen t call).Accounted := by
    intro t call
    unfold ifOpen
    split
    · exact h
    · split
      · exact h
      · exact h.spawn _
  cases action with
  | subscribe topic peers now => exact h.subscribe env topic peers now
  | joinPeers t peers | broadcast t content scope => exact hifOpen t _
  | close t now => exact h.closeTopic env t now
  | timer timer now =>
    have htimers : { a with timers := a.timers.erase timer }.Accounted :=
      h.onlyQueues ⟨_, _, _, _, _, rfl⟩
    rw [Actor.step]
    split
    · exact h
    · dsimp only
      split
      · exact htimers
      · exact htimers.handleAndDispatch env _ fun _ _ => nofun
  | rejoin topic r now => exact h.rejoin env topic r now
  | write q => exact h.onlyQueues (a.onlyQueues_writeQueue q)
  | dropPeer q now =>
    rw [Actor.step, Actor.dropPeer]
    split
    · exact h
    · split
      · exact h
      · exact (h.onlyQueues (a.onlyQueues_dropQueueLocked _ q)).handleAndDispatch env _
          fun _ _ => nofun
  | shutdown order now => exact h.shutdown env order now
  | proceed i now => exact h.proceed env i now
  | giveUp i =>
    rw [Actor.step, Actor.giveUp]
    split
    · split
      · exact h
      next ha => exact (h.onlyQueues (giveUpEvent_eq_some ha).1).withCalls _ _
    · exact h
  | _ => exact h.handleAndDispatch env _ fun _ _ => nofun

def Idle (a : Actor) : Prop := a.calls.len = 0

/-- Every topic of the protocol state has an open handle in `g.topics`. -/
def TopicsSubscribed (a : Actor) : Prop :=
  ∀ topic ∈ a.state.topics.keys, ∃ t ∈ (a.subscribers topic).keys,
    a.handles[t]? = some ⟨topic, false⟩

lemma Accounted.topicsSubscribed_iff (h : a.Accounted) : a.TopicsSubscribed ↔ a.late.len = 0 := by
  rw [len_eq_zero]
  constructor
  · intro hall topic hlate
    obtain ⟨t, ht, -⟩ := hall topic ((h.joined_iff topic).mpr (.inr hlate))
    exact h.not_late topic (mem_topics_of_mem_subscribers ht) hlate
  · intro hnone topic hjoined
    obtain ⟨t, ht⟩ := h.nonempty topic (((h.joined_iff topic).mp hjoined).resolve_right (hnone topic))
    exact ⟨t, ht, (h.entered t topic).mp ht⟩

/-- **No topic stays joined without a subscriber exactly if none is late when no call is in progress**:
each join of a topic whose last handle had closed was followed by a new subscription to the topic, or by
another close of one of its handles. -/
theorem topics_subscribed_iff_none_late (env : Env) (me : PeerID) (data : PeerData) (config : Config)
    (rand : Rand) (actions : List Action) :
    EachState (step env) (fun a => a.Idle → a.TopicsSubscribed)
        (newGossip (newState me data config rand)) actions ↔
      EachState (step env) (fun a => a.Idle → a.late.len = 0)
        (newGossip (newState me data config rand)) actions := by
  have hall : EachState (step env) Accounted (newGossip (newState me data config rand)) actions :=
    eachState_of_inv Accounted (fun a action h => h.step env action)
      (accounted_newGossip fun _ => not_mem_keys_empty) actions
  constructor
  · exact fun h pre hpre hidle => (hall pre hpre).topicsSubscribed_iff.mp (h pre hpre hidle)
  · exact fun h pre hpre hidle => (hall pre hpre).topicsSubscribed_iff.mpr (h pre hpre hidle)

/-- **Handles and topics agree in every interleaving.** -/
theorem handles_accounted (env : Env) (me : PeerID) (data : PeerData) (config : Config) (rand : Rand)
    (actions : List Action) :
    EachState (step env) Accounted (newGossip (newState me data config rand)) actions :=
  eachState_of_inv Accounted (fun _ action h => h.step env action)
    (accounted_newGossip fun _ => not_mem_keys_empty) actions

def constantEnv : Env := ⟨fun _ => .replicate 32 0, fun _ => ⟨fun _ => 0, 0⟩, fun _ => true⟩

def defaultGossip : Actor := newGossip (newState (.replicate 32 0) [] defaultConfig ⟨fun _ => 0, 0⟩)

/-- `JoinPeers` is past its checks when the only handle of its topic closes; its join comes last. -/
def lateJoin : List Action :=
  let topic : TopicID := .replicate 32 7
  [.subscribe topic [] 1, .proceed 0 2, .proceed 0 2, .joinPeers 0 [.replicate 32 2], .proceed 1 3,
    .close 0 4, .proceed 2 5, .proceed 2 5,
    .proceed 1 6, .proceed 1 7, .proceed 1 8, .proceed 1 9]

/-- After a late join no call is in progress, and the topic is joined without a subscriber. -/
theorem joined_topic_without_subscriber :
    ¬EachState (step constantEnv) (fun a => a.Idle → a.TopicsSubscribed) defaultGossip lateJoin := by
  intro h
  have hend : (lateJoin.foldl (step constantEnv) defaultGossip).calls.len = 0 ∧
      .replicate 32 7 ∈ (lateJoin.foldl (step constantEnv) defaultGossip).state.topics.keys ∧
      ((lateJoin.foldl (step constantEnv) defaultGossip).subscribers (.replicate 32 7)).keys = [] := by
    decide
  obtain ⟨hidle, hjoined, hnobody⟩ := hend
  obtain ⟨t, ht, -⟩ := h lateJoin prefix_rfl hidle _ hjoined
  rw [hnobody] at ht
  exact not_mem_nil ht

end Actor

end Iroh.Gossip
