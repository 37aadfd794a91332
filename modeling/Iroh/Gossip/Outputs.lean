import Iroh.Gossip.JoinedTopics

/-!
# What becomes of the outputs

Reference: `gossip/topic.go` (`handleLocked`, `dispatch`, `enqueue`, `emit`).

Each neighbor event that the state machine puts out for the subscribers of a topic is, at any time,
applied to `g.neighbors`, held by a goroutine that will apply it, or no longer theirs: its topic was
closed since.
-/

namespace Iroh.GossipProto

/-- What an output says about the active view of `topic`. -/
def OutEvent.toggleOf (topic : TopicID) : OutEvent → Option (Toggle PeerID)
  | .emitEvent t event => if t = topic then (TopicOutEvent.emitEvent event).toggle else none
  | _ => none

end Iroh.GossipProto

namespace Iroh.Gossip

open GossipProto List GoMap

/-! ## What outputs say about neighbors -/

/-- What an output says about the neighbors of a topic, if `emit` accepts it for the generation. -/
def Output.toggleOf (env : Env) (topic : TopicID) (generation : ℕ) (o : Output) :
    Option (Toggle PeerID) :=
  if o.generation = generation then
    (o.event.toggleOf topic).filter fun e => env.isEndpointID e.elem
  else none

lemma toggleOf_eq_some {topic : TopicID} {e : OutEvent} {t : Toggle PeerID} :
    e.toggleOf topic = some t ↔ (∃ p, t = .up p ∧ e = .emitEvent topic (.neighborUp p)) ∨
        ∃ p, t = .down p ∧ e = .emitEvent topic (.neighborDown p) := by
  unfold OutEvent.toggleOf
  cases e with
  | emitEvent topic' event =>
    cases event <;> by_cases htopic : topic' = topic <;>
      simp [TopicOutEvent.toggle, htopic, eq_comm]
  | _ => simp

lemma emitEvent_of_toggleOf {topic : TopicID} {e : OutEvent} {t : Toggle PeerID}
    (h : e.toggleOf topic = some t) : ∃ ev, e = .emitEvent topic ev := by
  rcases toggleOf_eq_some.mp h with ⟨p, -, rfl⟩ | ⟨p, -, rfl⟩
  · exact ⟨_, rfl⟩
  · exact ⟨_, rfl⟩

lemma Output.toggleOf_eq_some {env : Env} {topic : TopicID} {generation : ℕ} {o : Output}
    {t : Toggle PeerID} :
    o.toggleOf env topic generation = some t ↔
      o.generation = generation ∧ o.event.toggleOf topic = some t ∧
        env.isEndpointID t.elem = true := by
  unfold Output.toggleOf
  split
  next hgen => simp [hgen]
  next hgen => simp [hgen]

namespace Actor

variable {env : Env} {a : Actor} {floating : List Output}

/-- An open topic has a generation, and no generation is ahead of its time. -/
structure Generations (a : Actor) : Prop where
  open_iff : ∀ topic, topic ∈ a.generations.keys ↔ topic ∈ a.topics.keys
  current_le : ∀ topic n, a.generations.get? topic = some n → n ≤ a.nextGeneration
  emitted_le : ∀ o ∈ a.emitted, o.generation ≤ a.nextGeneration

/-- The event is meant for subscribers that its topic has now. -/
def Matters (env : Env) (a : Actor) (o : Output) : Prop :=
  ∃ topic n e, a.generations.get? topic = some n ∧ o.toggleOf env topic n = some e

variable {o : Output} {topic : TopicID}

lemma Generations.mem_applied_emit (h : a.Generations) {ev : TopicEvent}
    (hev : o.event = .emitEvent topic ev) (hmatters : a.Matters env o) :
    o ∈ (a.emit env o topic ev).applied := by
  obtain ⟨t, n, e, hn, he⟩ := hmatters
  obtain ⟨hgen, ht, hid⟩ := Output.toggleOf_eq_some.mp he
  have hopen : t ∈ a.topics.keys := (h.open_iff t).mp (mem_keys_iff.mpr ⟨n, hn⟩)
  have hgen' : a.generation t = o.generation := by
    rw [generation, hn, Option.getD_some, hgen]
  rcases toggleOf_eq_some.mp ht with ⟨p, rfl, hev'⟩ | ⟨p, rfl, hev'⟩ <;> rw [hev] at hev' <;>
    obtain ⟨rfl, rfl⟩ := hev' <;>
    simp only [Toggle.elem] at hid
  · simp [Actor.emit, publicPeer, hid, hgen', GoMap.contains_iff.mpr hopen]
  · simp [Actor.emit, publicPeer, hid, hgen']

/-! ## What is still to be done -/

/-- Every output that matters has been applied, is held by a goroutine, or is floating. -/
structure Holds (env : Env) (floating : List Output) (a : Actor) : Prop where
  fresh : ∀ i ∈ a.calls.keys, i < a.nextCall
  pending : ∀ i c, a.calls.get? i = some c → ∀ o ∈ c.events, o ∈ a.emitted
  afloat : ∀ o ∈ floating, o ∈ a.emitted
  told : ∀ o ∈ a.emitted, a.Matters env o →
    o ∈ a.applied ∨ o ∈ floating ∨ ∃ i c, a.calls.get? i = some c ∧ o ∈ c.events

lemma Holds.setCall (h : a.Holds env floating) (i : ℕ) (c : Call) (nextCall : ℕ)
    (hi : i < nextCall) (hnext : a.nextCall ≤ nextCall) (hc : ∀ o ∈ c.events, o ∈ a.emitted)
    (hfloating : ∀ o ∈ floating, a.Matters env o → o ∈ c.events)
    (hold : ∀ c', a.calls.get? i = some c' → ∀ o ∈ c'.events, a.Matters env o →
      o ∈ c.events ∨ o ∈ a.applied) :
    { a with calls := a.calls.set i c, nextCall := nextCall }.Holds env [] := by
  refine ⟨?_, ?_, fun _ => nofun, ?_⟩
  · intro j hj
    rcases mem_keys_set.mp hj with rfl | hj
    · exact hi
    · exact (h.fresh j hj).trans_le hnext
  · intro j c' hj
    rw [get?_set] at hj
    split at hj
    · cases hj
      exact hc
    · exact h.pending j c' hj
  · intro o ho hmatters
    have hself : (a.calls.set i c).get? i = some c := by rw [get?_set, if_pos rfl]
    rcases h.told o ho hmatters with happlied | hfloat | ⟨j, c', hj, hmem⟩
    · exact .inl happlied
    · exact .inr (.inr ⟨i, c, hself, hfloating o hfloat hmatters⟩)
    · by_cases hji : j = i
      · subst hji
        rcases hold c' hj o hmem hmatters with hmem | happlied
        · exact .inr (.inr ⟨j, c, hself, hmem⟩)
        · exact .inl happlied
      · refine .inr (.inr ⟨j, c', ?_, hmem⟩)
        rw [get?_set, if_neg hji]
        exact hj

lemma Holds.spawn (h : a.Holds env floating) (c : Call) (hc : ∀ o ∈ c.events, o ∈ a.emitted)
    (hfloating : ∀ o ∈ floating, a.Matters env o → o ∈ c.events) : (a.spawn c).Holds env [] := by
  refine h.setCall a.nextCall c (a.nextCall + 1) (Nat.lt_succ_self _) (Nat.le_succ _) hc hfloating ?_
  intro c' hc'
  exact absurd (h.fresh _ (mem_keys_iff.mpr ⟨c', hc'⟩)) (Nat.lt_irrefl _)

/-! ## The invariant -/

/-- No event that matters is lost. -/
structure Tracked (env : Env) (floating : List Output) (a : Actor) : Prop where
  generations : a.Generations
  holds : a.Holds env floating

def record (a : Actor) : List Output × GoMap TopicID ℕ × ℕ × List Output × GoMap ℕ Call × ℕ :=
  (a.emitted, a.generations, a.nextGeneration, a.applied, a.calls, a.nextCall)

namespace Tracked

variable {a' : Actor} {o : Output}

section

variable (h : a.Tracked env floating)
include h

lemma congr (hrecord : a'.record = a.record)
    (htopics : ∀ topic, topic ∈ a'.topics.keys ↔ topic ∈ a.topics.keys) : a'.Tracked env floating := by
  obtain ⟨⟨⟩, ⟨⟩⟩ := h
  simp only [record, Prod.mk.injEq] at hrecord
  obtain ⟨hemitted, hgenerations, hnext, happlied, hcalls, hnextCall⟩ := hrecord
  constructor
  · constructor <;> simp only [hemitted, hgenerations, hnext, htopics] <;> assumption
  · constructor <;> simp only [Matters, hemitted, hgenerations, happlied, hcalls, hnextCall] <;>
      assumption

lemma same (hrecord : a'.record = a.record) (htopics : a'.topics = a.topics) : a'.Tracked env floating :=
  h.congr hrecord fun _ => by rw [htopics]

lemma onlyQueues (ha : OnlyQueues a a') : a'.Tracked env floating := by
  obtain ⟨_, _, _, _, _, rfl⟩ := ha
  exact h.same rfl rfl

lemma queue (ha : Queued a a' peer item) : a'.Tracked env floating := by
  rcases ha with ha | ⟨_, _, _, _, _, rfl⟩
  · exact h.onlyQueues ha
  · exact h.same rfl rfl

lemma handleLocked (ev : InEvent) :
    (a.handleLocked env ev).1.Tracked env (floating ++ (a.handleLocked env ev).2) where
  generations := by
    refine ⟨h.generations.open_iff, h.generations.current_le,
      forall_mem_append.mpr ⟨h.generations.emitted_le, fun o ho => ?_⟩⟩
    obtain ⟨i, hi, rfl⟩ := mem_mapIdx.mp ho
    rw [generation]
    cases hn : a.generations.get? _ with
    | none => exact Nat.zero_le _
    | some n => exact h.generations.current_le _ n hn
  holds := by
    refine ⟨h.holds.fresh, ?_, ?_, ?_⟩
    · exact fun i c hc o ho => mem_append_left _ (h.holds.pending i c hc o ho)
    · exact forall_mem_append.mpr ⟨fun o ho => mem_append_left _ (h.holds.afloat o ho),
        fun o ho => mem_append_right _ ho⟩
    · refine forall_mem_append.mpr ⟨fun o ho hmatters => ?_, fun o ho hmatters => ?_⟩
      · exact (h.holds.told o ho hmatters).imp_right (Or.imp_left (mem_append_left _))
      · exact .inr (.inl (mem_append_right _ ho))

lemma spawn (c : Call) (hc : ∀ o ∈ c.events, o ∈ a.emitted)
    (hfloating : ∀ o ∈ floating, a.Matters env o → o ∈ c.events) : (a.spawn c).Tracked env [] :=
  ⟨{ h.generations with }, h.holds.spawn c hc hfloating⟩

lemma spawn_dispatch (waiting : Option ℕ) (bounded : Bool) (after : After) :
    (a.spawn (.dispatch floating waiting bounded after)).Tracked env [] :=
  h.spawn _ h.holds.afloat fun _ ho _ => ho

lemma setCall (c : Call) (hi : a.calls.get? i = some old)
    (hc : ∀ o ∈ c.events, o ∈ a.emitted) (hfloating : ∀ o ∈ floating, a.Matters env o → o ∈ c.events)
    (hold : ∀ o ∈ old.events, a.Matters env o → o ∈ c.events ∨ o ∈ a.applied) :
    { a with calls := a.calls.set i c }.Tracked env [] := by
  have hfresh := h.holds.fresh i (mem_keys_iff.mpr ⟨old, hi⟩)
  refine ⟨{ h.generations with }, h.holds.setCall i c a.nextCall hfresh le_rfl hc hfloating fun c' hc' => ?_⟩
  rw [Option.some.inj (hc'.symm.trans hi)]
  exact hold

end

lemma advance (h : a.Tracked env []) (c : Call)
    (hi : a.calls.get? i = some old) (hold : old.events = o :: rest)
    (hc : c.events = rest ∨ c.events = o :: rest) (ho : a.Matters env o → o ∈ a.applied) :
    { a with calls := a.calls.set i c }.Tracked env [] := by
  have hpending := h.holds.pending i old hi
  rw [hold] at hpending
  refine h.setCall c hi ?_ (fun _ => nofun) ?_
  · rcases hc with hc | hc <;> rw [hc]
    · exact fun o' ho' => hpending o' (mem_cons_of_mem o ho')
    · exact hpending
  · rw [hold]
    refine forall_mem_cons.mpr ⟨fun hmatters => .inr (ho hmatters), fun o' ho' _ => .inl ?_⟩
    rcases hc with hc | hc <;> rw [hc]
    · exact ho'
    · exact mem_cons_of_mem o ho'

lemma deleteCall (h : a.Tracked env []) (hi : a.calls.get? i = some old)
    (hold : old.events = []) : { a with calls := a.calls.delete i }.Tracked env [] := by
  refine ⟨{ h.generations with }, ⟨?_, ?_, h.holds.afloat, ?_⟩⟩
  · exact fun j hj => h.holds.fresh j (mem_keys_delete.mp hj).2
  · intro j c hj
    rw [get?_delete] at hj
    split at hj
    · cases hj
    · exact h.holds.pending j c hj
  · intro o ho hmatters
    rcases h.holds.told o ho hmatters with happlied | hfloat | ⟨j, c, hj, hmem⟩
    · exact .inl happlied
    · exact .inr (.inl hfloat)
    · refine .inr (.inr ⟨j, c, ?_, hmem⟩)
      have hji : j ≠ i := by
        rintro rfl
        rw [Option.some.inj (hj.symm.trans hi), hold] at hmem
        exact not_mem_nil hmem
      rw [get?_delete, if_neg hji]
      exact hj

lemma dispatchEvent (h : a.Tracked env floating) (o : Output) (waiting : Option ℕ) :
    (a.dispatchEvent env o waiting).1.Tracked env floating := by
  unfold Actor.dispatchEvent
  split
  · exact h.queue (a.queued_enqueue _ _ _ _)
  next topic ev _ =>
    rcases a.emit_eq env o topic ev with heq | ⟨neighbors, heq⟩
    · rw [heq]
      exact h
    · rw [heq]
      refine ⟨{ h.generations with }, { h.holds with told := fun o' ho' hmatters => ?_ }⟩
      exact (h.holds.told o' ho' hmatters).imp_left (mem_append_left _)
  · exact h.onlyQueues ⟨_, _, _, _, _, rfl⟩
  · exact h.queue (a.queued_enqueue _ _ _ _)
  · exact h

end Tracked

lemma dispatchEvent_frame (env : Env) (a : Actor) (o : Output) (waiting : Option ℕ) :
    (a.dispatchEvent env o waiting).1.calls = a.calls ∧
      (a.dispatchEvent env o waiting).1.generations = a.generations := by
  have hqueued : ∀ {a' : Actor} {peer : PeerID} {item : SendItem}, Queued a a' peer item →
      a'.calls = a.calls ∧ a'.generations = a.generations := by
    rintro a' peer item (⟨_, _, _, _, _, rfl⟩ | ⟨_, _, _, _, _, rfl⟩) <;> exact ⟨rfl, rfl⟩
  unfold dispatchEvent
  split
  · exact hqueued (a.queued_enqueue _ _ _ _)
  next topic event _ =>
    rcases a.emit_eq env o topic event with heq | ⟨_, heq⟩ <;> rw [heq] <;> exact ⟨rfl, rfl⟩
  · exact ⟨rfl, rfl⟩
  · exact hqueued (a.queued_enqueue _ _ _ _)
  · exact ⟨rfl, rfl⟩

lemma Matters.event (h : a.Matters env o) : ∃ topic ev, o.event = .emitEvent topic ev := by
  obtain ⟨topic, n, e, -, he⟩ := h
  exact ⟨topic, emitEvent_of_toggleOf (Output.toggleOf_eq_some.mp he).2.1⟩

lemma Tracked.dispatchEvent_matters (h : a.Tracked env floating) (hmatters : a.Matters env o)
    (waiting : Option ℕ) : o ∈ (a.dispatchEvent env o waiting).1.applied := by
  obtain ⟨topic, ev, hev⟩ := hmatters.event
  unfold Actor.dispatchEvent
  rw [hev]
  exact h.generations.mem_applied_emit hev hmatters

/-! ## Opening and closing topics -/

namespace Tracked

variable (h : a.Tracked env floating)
include h

lemma retopic {topics : GoMap TopicID (GoSet ℕ)} (neighbors : GoMap TopicID (GoSet PeerID))
    {generations : GoMap TopicID ℕ} {nextGeneration : ℕ} (hnext : a.nextGeneration ≤ nextGeneration)
    (hopen : ∀ t, t ∈ generations.keys ↔ t ∈ topics.keys) (hget : ∀ t n, generations.get? t = some n →
      a.generations.get? t = some n ∨ a.nextGeneration < n ∧ n ≤ nextGeneration) :
    { a with
      topics := topics, neighbors := neighbors, generations := generations
      nextGeneration := nextGeneration }.Tracked env floating := by
  refine ⟨⟨hopen, fun t n hn => ?_, fun o ho => (h.generations.emitted_le o ho).trans hnext⟩,
    { h.holds with told := ?_ }⟩
  · rcases hget t n hn with hn | hlt
    · exact (h.generations.current_le t n hn).trans hnext
    · exact hlt.2
  · rintro o ho ⟨t, n, e, hn, he⟩
    rcases hget t n hn with hn | hlt
    · exact h.holds.told o ho ⟨t, n, e, hn, he⟩
    · -- nothing was put out for the subscribers of a topic that opens now
      have hgen := (Output.toggleOf_eq_some.mp he).1
      have := h.generations.emitted_le o ho
      omega

lemma openTopic (topic : TopicID) : (a.openTopic topic).Tracked env floating := by
  unfold Actor.openTopic
  split
  · exact h
  · refine h.retopic _ (Nat.le_succ _) (fun t => ?_) fun t n hn => ?_
    · rw [mem_keys_set, mem_keys_set, h.generations.open_iff]
    · rw [get?_set] at hn
      split at hn
      · cases hn
        exact .inr ⟨Nat.lt_succ_self _, le_rfl⟩
      · exact .inl hn

lemma forgetTopic (topic : TopicID) : (a.forgetTopic topic).Tracked env floating := by
  have hforget : { a with
      topics := a.topics.delete topic
      neighbors := a.neighbors.delete topic
      generations := a.generations.delete topic }.Tracked env floating := by
    refine h.retopic _ le_rfl (fun t => ?_) fun t n hn => .inl (of_get?_delete hn).2
    rw [mem_keys_delete, mem_keys_delete, h.generations.open_iff]
  exact hforget.same rfl rfl

end Tracked

/-! ## Actions -/

section Actions

lemma Tracked.rejoinLocked (h : a.Tracked env floating) (topic : TopicID) (peers : List PeerID) :
    (a.rejoinLocked topic peers).Tracked env floating := by
  rcases a.rejoinLocked_eq topic peers with heq | ⟨rejoins, _, _, _, heq⟩
  · rw [heq]
    exact h
  · rw [heq]
    exact h.same rfl rfl

section

variable (h : a.Tracked env [])
include h

lemma Tracked.handleAndDispatch (ev : InEvent) (bounded : Bool) :
    (a.handleAndDispatch env ev bounded).Tracked env [] :=
  (h.handleLocked ev).spawn_dispatch _ _ _

lemma Tracked.subscribe (topic : TopicID) (peers : List PeerID) (now : Time) :
    (a.subscribe env topic peers now).Tracked env [] := by
  unfold Actor.subscribe
  split
  · exact h
  · have hopened := h.openTopic topic
    have hmem : topic ∈ (a.openTopic topic).topics.keys := by
      unfold Actor.openTopic
      split
      next ht => exact contains_iff.mp ht
      · exact mem_keys_set.mpr (.inl rfl)
    have hadded : ((a.openTopic topic).addHandle topic).Tracked env [] := by
      refine hopened.congr rfl fun t => ?_
      refine mem_keys_set.trans (or_iff_right_of_imp ?_)
      rintro rfl
      exact hmem
    have hcall := hadded.handleLocked ⟨.command topic (.join peers), now⟩
    exact (hcall.rejoinLocked topic peers).spawn_dispatch none true .done

lemma Tracked.closeTopic (t : ℕ) (now : Time) : (a.closeTopic env t now).Tracked env [] := by
  unfold Actor.closeTopic
  split
  · exact h
  next hd _ =>
    have hdropped : ((a.closeEvents t).dropHandle hd.id t).Tracked env [] := by
      have hkeys := fun topic => mem_keys_dropHandle a hd.id topic t
      rw [dropHandle_eq]
      exact h.congr rfl hkeys
    have hforgot := hdropped.forgetTopic hd.id
    dsimp only
    split
    · exact hdropped.spawn_dispatch none false .done
    · split
      · exact hforgot.spawn_dispatch none false .done
      · refine Tracked.handleAndDispatch ?_ _ _
        exact hforgot.same rfl rfl

lemma Tracked.joinPeersLocked
    (hi : a.calls.get? i = some (.joinPeers t peers)) :
    (a.joinPeersLocked i t peers).Tracked env [] := by
  unfold Actor.joinPeersLocked
  split
  · exact h
  next hd _ =>
    have hset : ∀ {a' : Actor}, a'.Tracked env [] → a'.calls = a.calls →
        { a' with calls := a'.calls.set i (.command hd.id ⟨.join peers, by simp⟩) }.Tracked env [] := by
      intro a' h' hcalls
      exact h'.setCall _ (hcalls ▸ hi) (by simp [Call.events]) (by simp) (by simp [Call.events])
    split
    · exact hset h rfl
    · refine hset (h.rejoinLocked _ _) ?_
      rcases a.rejoinLocked_eq hd.id peers with heq | ⟨_, _, _, _, heq⟩ <;> rw [heq]

lemma Tracked.command (hi : a.calls.get? i = some (.command topic cmd)) (now : Time) :
    (a.command env i topic cmd now).Tracked env [] := by
  unfold Actor.command
  split
  · exact h.deleteCall hi rfl
  · obtain ⟨late, heq, -⟩ := a.noteLate_eq topic cmd.1
    rw [heq]
    have hlate : { a with late := late }.Tracked env [] := h.same rfl rfl
    have hcall := hlate.handleLocked ⟨.command topic cmd.1, now⟩
    exact hcall.setCall _ hi hcall.holds.afloat (fun o ho _ => ho) (by simp [Call.events])

lemma Tracked.proceed (i : ℕ) (now : Time) :
    (a.proceed env i now).Tracked env [] := by
  unfold Actor.proceed
  split
  · exact h
  next hi => exact h.joinPeersLocked hi
  next hi => exact h.command hi now
  next hi => exact (h.deleteCall hi rfl).onlyQueues (onlyQueues_finish _ _)
  next o rest waiting bounded after hi =>
    obtain ⟨hcalls, hgens⟩ := a.dispatchEvent_frame env o waiting
    have hcall := h.dispatchEvent o waiting
    refine hcall.advance _ (hcalls ▸ hi) rfl ?_ fun hmatters => ?_
    · split
      · exact .inr rfl
      · exact .inl rfl
    · -- an event that matters has been applied
      unfold Matters at hmatters
      rw [hgens] at hmatters
      exact h.dispatchEvent_matters hmatters waiting

lemma Tracked.giveUp (i : ℕ) : (a.giveUp i).Tracked env [] := by
  unfold Actor.giveUp
  split
  next o rest q after hi =>
    split
    · exact h
    next a' ha =>
      obtain ⟨honly, hev⟩ := giveUpEvent_eq_some ha
      have hi' : a'.calls.get? i = some (.dispatch (o :: rest) (some q) true after) := by
        obtain ⟨_, _, _, _, _, rfl⟩ := honly
        exact hi
      refine (h.onlyQueues honly).advance _ hi' rfl (.inl rfl) fun hmatters => ?_
      obtain ⟨topic, ev, heq⟩ := hmatters.event
      exact absurd heq (hev topic ev)
  · exact h

end

lemma Tracked.queueJoins (h : a.Tracked env floating) (generation : ℕ) (outs : List Output) :
    (outs.foldl (queueJoin generation) a).Tracked env floating := by
  refine foldlRecOn outs _ h fun a' h' o _ => ?_
  unfold queueJoin
  split
  · exact h'.queue (a'.queued_queueLocked _ _ true)
  · exact h'

lemma Tracked.rejoin (h : a.Tracked env []) (topic : TopicID) (r : ℕ)
    (now : Time) : (a.rejoin env topic r now).Tracked env [] := by
  have htimers : ∀ timers, { a with rejoinTimers := timers }.Tracked env [] :=
    fun timers => h.onlyQueues ⟨_, _, _, _, _, rfl⟩
  unfold Actor.rejoin
  split
  · exact h
  · dsimp only
    split
    · exact htimers _
    · split
      · exact h.same rfl rfl
      · split
        · exact htimers _
        next s _ =>
          have hcall := (htimers (a.rejoinTimers.erase (topic, r))).handleLocked
            ⟨.command topic (.join s.peers), now⟩
          have hqueued := fun outs => hcall.queueJoins s.generation outs
          refine (hqueued _).spawn _ ?_ ?_
          · exact fun o ho => (hqueued _).holds.afloat o (mem_of_mem_filter ho)
          · -- no message matters, so none of what was queued is missed
            intro o ho hmatters
            obtain ⟨t, ev, hev⟩ := hmatters.event
            refine mem_filter.mpr ⟨ho, ?_⟩
            rw [hev]

lemma Tracked.shutdown (h : a.Tracked env []) (order : List TopicID) (now : Time) :
    (a.shutdown env order now).Tracked env [] := by
  unfold Actor.shutdown
  split
  · exact h
  · -- the outputs of the topics quit so far float
    have hloop : ∀ (order : List TopicID) (q : Actor × List Output), q.1.Tracked env q.2 →
        (order.foldl (shutdownTopic env now) q).1.Tracked env
          (order.foldl (shutdownTopic env now) q).2 := by
      intro order
      induction order with
      | nil => exact fun _ hq => hq
      | cons topic order ih =>
        intro q hq
        refine ih _ ?_
        have hquit := hq.handleLocked ⟨.command topic .quit, now⟩
        obtain ⟨handles, heq, -⟩ := foldl_closeEvents (q.1.subscribers topic).keys
          (q.1.handleLocked env ⟨.command topic .quit, now⟩).1
        show ((q.1.subscribers topic).keys.foldl closeEvents _).Tracked env _
        rw [heq]
        exact hquit.same rfl rfl
    have hstart : { a with closed := true }.Tracked env [] := h.same rfl rfl
    have hquit := hloop order ({ a with closed := true }, []) hstart
    refine Tracked.spawn_dispatch ?_ _ _ _
    have hforget : { (order.foldl (shutdownTopic env now) ({ a with closed := true }, [])).1 with
        topics := .empty, neighbors := .empty, generations := .empty }.Tracked env
          (order.foldl (shutdownTopic env now) ({ a with closed := true }, [])).2 := by
      exact hquit.retopic _ le_rfl (fun _ => Iff.rfl) fun _ _ => nofun
    exact hforget.same rfl rfl

/-- Every action keeps track of the events. -/
theorem Tracked.step (h : a.Tracked env []) (action : Action) :
    (a.step env action).Tracked env [] := by
  have hifOpen : ∀ t (call : Handle → Call), (∀ hd, (call hd).events = []) →
      (a.ifOpen t call).Tracked env [] := by
    intro t call hcall
    unfold ifOpen
    split
    · exact h
    · split
      · exact h
      · refine h.spawn _ (fun o ho => ?_) fun _ => nofun
        rw [hcall] at ho
        exact absurd ho not_mem_nil
  cases action with
  | subscribe topic peers now => exact h.subscribe topic peers now
  | joinPeers t peers | broadcast t content scope => exact hifOpen t _ fun _ => rfl
  | close t now => exact h.closeTopic t now
  | timer timer now =>
    have htimers : { a with timers := a.timers.erase timer }.Tracked env [] :=
      h.onlyQueues ⟨_, _, _, _, _, rfl⟩
    rw [Actor.step]
    split
    · exact h
    · dsimp only
      split
      · exact htimers
      · exact htimers.handleAndDispatch _ _
  | rejoin topic r now => exact h.rejoin topic r now
  | write q => exact h.onlyQueues (a.onlyQueues_writeQueue q)
  | dropPeer q now =>
    rw [Actor.step, Actor.dropPeer]
    split
    · exact h
    · split
      · exact h
      · exact (h.onlyQueues (a.onlyQueues_dropQueueLocked _ q)).handleAndDispatch _ _
  | shutdown order now => exact h.shutdown order now
  | proceed i now => exact h.proceed i now
  | giveUp i => exact h.giveUp i
  | _ => exact h.handleAndDispatch _ _

lemma tracked_newGossip (s : State) : (newGossip s).Tracked env [] where
  generations := ⟨fun _ => Iff.rfl, fun _ _ => nofun, fun _ => nofun⟩
  holds := ⟨fun _ h => absurd h not_mem_keys_empty, fun _ _ => nofun, fun _ => nofun,
    fun _ => nofun⟩

end Actions

/-- **No neighbor event is lost**: one that is still meant for the subscribers of its topic has been applied,
or a goroutine holds it. -/
theorem neighbor_events_kept (env : Env) (me : PeerID) (data : PeerData) (config : Config) (rand : Rand)
    (actions : List Action) :
    EachState (step env) (fun a => ∀ o ∈ a.emitted, a.Matters env o →
        o ∈ a.applied ∨ ∃ i c, a.calls.get? i = some c ∧ o ∈ c.events)
      (newGossip (newState me data config rand)) actions := by
  intro pre hpre o ho hmatters
  have hrun := eachState_of_inv (Tracked env []) (fun _ action h => h.step action)
    (tracked_newGossip (newState me data config rand)) actions pre hpre
  rcases hrun.holds.told o ho hmatters with happlied | hfloating | hheld
  · exact .inl happlied
  · exact absurd hfloating not_mem_nil
  · exact .inr hheld

end Actor

end Iroh.Gossip
