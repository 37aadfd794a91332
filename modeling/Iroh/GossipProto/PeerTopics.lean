import Iroh.Common.Runs
import Iroh.GossipProto.Layers
import Iroh.GossipProto.Links
import Iroh.GossipProto.State

/-!
# Shared connections

Reference: `internal/gossipproto/state.go`.

A peer becomes active in a topic only as the sender of a message on it, and `handleTopicEvent` records the
topic for that peer first.  A topic is dropped again when its HyParView tells the caller to disconnect the
peer, at which point the peer is not active in it.

The converse is not kept up: messages that HyParView does not answer with a disconnect leave a record
behind, which a quit of the topic does not clear.
-/

namespace Iroh.GossipProto

open List GoMap

/-! ## Disconnects of a topic -/

namespace TopicCall

variable {idOf : Bytes → MessageID} {p : PeerID}

variable (c : TopicCall)

lemma disconnectPeer_mem_toGossip (ev : PlumtreeInEvent) :
    .disconnectPeer p ∈ (c.toGossip idOf ev).out ↔ .disconnectPeer p ∈ c.out := by
  have hnone : .disconnectPeer p ∉ fromPlumtree (c.gossip.handle idOf ev).2 := by
    intro hmem
    obtain ⟨out, -, hout⟩ := mem_map.mp hmem
    cases out <;> cases hout
  simp [toGossip, hnone]

lemma disconnectPeer_mem_fromHyparviewOne (ev : HyparviewOutEvent) :
    .disconnectPeer p ∈ (c.fromHyparviewOne idOf ev).out ↔
      .disconnectPeer p ∈ c.out ∨ ev = .disconnectPeer p := by
  cases ev with
  | emitEvent event =>
    cases event <;> simp [fromHyparviewOne, disconnectPeer_mem_toGossip, emit]
  | disconnectPeer dest => simp [fromHyparviewOne, emit, eq_comm]
  | _ => simp [fromHyparviewOne, emit]

lemma disconnectPeer_mem_fromHyparview (events : List HyparviewOutEvent) :
    .disconnectPeer p ∈ (c.fromHyparview idOf events).out ↔
      .disconnectPeer p ∈ c.out ∨ .disconnectPeer p ∈ events := by
  induction events generalizing c with
  | nil => simp [fromHyparview]
  | cons ev events ih =>
    have hrest := ih (c.fromHyparviewOne idOf ev)
    rw [fromHyparview] at hrest ⊢
    rw [foldl_cons, hrest, disconnectPeer_mem_fromHyparviewOne, mem_cons, or_assoc, eq_comm (a := ev)]

lemma disconnectPeer_mem_toSwarm (ev : HyparviewInEvent) : .disconnectPeer p ∈ (c.toSwarm idOf ev).out ↔
      .disconnectPeer p ∈ c.out ∨ .disconnectPeer p ∈ (c.swarm.handle ev).2 :=
  disconnectPeer_mem_fromHyparview { c with swarm := (c.swarm.handle ev).1 } _

end TopicCall

/-- What `Serves` says, for a topic. -/
structure TopicServes (s : TopicState) (sender : Option PeerID) (c : TopicCall) : Prop where
  wellFormed : c.swarm.WellFormed
  entered : ∀ p ∈ c.swarm.active, p ∈ s.swarm.active ∨ sender = some p
  closed : ∀ p, .disconnectPeer p ∈ c.out → p ∉ c.swarm.active
  left : ∀ p ∈ s.swarm.active, p ∉ c.swarm.active → .disconnectPeer p ∈ c.out

def TopicInput.sender : TopicInput → Option PeerID
  | .recvMessage sender _ => some sender
  | _ => none

section Serves

variable {idOf : Bytes → MessageID} {s : TopicState} {c : TopicCall} {sender : Option PeerID}

lemma TopicServes.start (h : s.swarm.WellFormed) (sender : Option PeerID) :
    TopicServes s sender (.mk s []) :=
  ⟨h, fun _ => .inl, fun _ => nofun, fun _ hp hnot => absurd hp hnot⟩

lemma TopicServes.toGossip (h : TopicServes s sender c) (ev : PlumtreeInEvent) :
    TopicServes s sender (c.toGossip idOf ev) where
  wellFormed := h.wellFormed
  entered := h.entered
  closed p hp := h.closed p ((c.disconnectPeer_mem_toGossip ev).mp hp)
  left p hp hnot := (c.disconnectPeer_mem_toGossip ev).mpr (h.left p hp hnot)

lemma TopicServes.toSwarm (h : TopicServes s sender c)
    (hev : ev.sender = none ∨ c.out = [] ∧ ev.sender = sender) :
    TopicServes s sender (c.toSwarm idOf ev) := by
  have hserves := h.wellFormed.serves_call ev
  have hswarm : (c.toSwarm idOf ev).swarm = (c.swarm.call ev).toHyparviewState :=
    TopicCall.swarm_toSwarm c ev
  constructor <;> rw [hswarm]
  · exact (h.wellFormed.keeps_call ev).views
  · intro p hp
    rcases hserves.entered p hp with hp | hp
    · exact h.entered p hp
    · rcases hev with hnone | ⟨-, hsender⟩
      · cases hnone.symm.trans hp
      · exact .inr (hsender ▸ hp)
  · intro p hp hmem
    rcases (c.disconnectPeer_mem_toSwarm ev).mp hp with hp | hp
    · rcases hev with hnone | ⟨hout, -⟩
      · exact h.closed p hp ((hserves.entered p hmem).resolve_right (by simp [hnone]))
      · rw [hout] at hp
        cases hp
    · exact hserves.closed p hp hmem
  · intro p hp hnot
    rw [TopicCall.disconnectPeer_mem_toSwarm]
    -- the peer has left in this input, or in an earlier one
    by_cases hmem : p ∈ c.swarm.active
    · exact .inr (hserves.left p hmem hnot)
    · exact .inl (h.left p hp hmem)

lemma TopicServes.handleCommand (h : TopicServes s sender c) (now : Time) (command : TopicCommand) :
    TopicServes s sender (c.handleCommand idOf now command) := by
  cases command with
  | join peers =>
    apply foldlRecOn (motive := TopicServes s sender) peers _ h
    intro c' h' peer _
    exact h'.toSwarm (.inl rfl)
  | broadcast content scope => exact h.toGossip _
  | quit => exact h.toSwarm (.inl rfl)
  | unknown kind => exact h

theorem TopicState.serves_handle (idOf : Bytes → MessageID) (h : s.swarm.WellFormed)
    (ev : TopicInEvent) :
    TopicServes s ev.input.sender (TopicCall.mk (s.handle idOf ev).1 (s.handle idOf ev).2) := by
  have hstart := TopicServes.start h
  have hcall : TopicServes s ev.input.sender
      ((TopicCall.mk s []).handleInput idOf ev.now ev.input) := by
    cases ev.input with
    | command command => exact (hstart none).handleCommand ev.now command
    | recvMessage sender message =>
      have hcounted : TopicServes s (some sender)
          (.mk { s with messagesReceived := s.messagesReceived + 1 } []) := { hstart (some sender) with }
      cases message with
      | swarm message =>
        have hev : (HyparviewInEvent.recvMessage sender message).sender = some sender := rfl
        exact hcounted.toSwarm (.inr ⟨rfl, hev⟩)
      | gossip message => exact hcounted.toGossip _
      | unknown kind => exact hcounted
    | timerExpired timer =>
      cases timer with
      | hyparview timer => exact (hstart none).toSwarm (.inl rfl)
      | plumtree timer => exact (hstart none).toGossip _
      | unknown kind => exact hstart none
    | peerDisconnected peer => exact ((hstart none).toSwarm (.inl rfl)).toGossip _
    | updatePeerData data => exact (hstart none).toSwarm (.inl rfl)
    | unknown kind => exact hstart none
  exact { hcall with }

lemma TopicState.disconnectPeer_mem_handle_quit (idOf : Bytes → MessageID)
    (h : s.swarm.WellFormed) (now : Time) (p : PeerID) :
    .disconnectPeer p ∈ (s.handle idOf ⟨.command .quit, now⟩).2 ↔ p ∈ s.swarm.active := by
  refine ((TopicCall.mk s []).disconnectPeer_mem_toSwarm .quit).trans ?_
  rw [or_iff_right not_mem_nil]
  exact h.call_quit.2 p

lemma TopicState.not_mem_active_handle_peerDisconnected (h : s.swarm.WellFormed) (peer : PeerID)
    (now : Time) : peer ∉ (s.handle idOf ⟨.peerDisconnected peer, now⟩).1.swarm.active := by
  have hswarm : ((TopicCall.mk s []).toSwarm idOf (.peerDisconnected peer)).swarm =
      (s.swarm.handle (.peerDisconnected peer)).1 := TopicCall.swarm_toSwarm _ _
  intro hmem
  refine h.not_mem_active_peerDisconnected peer ?_
  rw [← hswarm]
  exact hmem

end Serves

/-! ## The recorded topics -/

/-- A topic is recorded in `peerTopics[p]`. -/
def State.Recorded (s : State) (p : PeerID) (topic : TopicID) : Prop := topic ∈ (s.topicsOf p).keys

namespace StateCall

variable {c : StateCall} {p : PeerID} {topic : TopicID}

lemma recorded_record (c : StateCall) (sender : PeerID) (t topic : TopicID) :
    (c.record sender topic).Recorded p t ↔ p = sender ∧ t = topic ∨ c.Recorded p t := by
  simp only [State.Recorded, State.topicsOf, record]
  by_cases hp : p = sender
  · subst hp
    simp
  · simp [hp]

lemma recorded_forget (c : StateCall) (peer : PeerID) (t : TopicID) :
    ({ c with peerTopics := c.peerTopics.delete peer } : StateCall).Recorded p t ↔
      p ≠ peer ∧ c.Recorded p t := by
  by_cases hp : p = peer <;> simp [State.Recorded, State.topicsOf, hp]

lemma recorded_dropPeerTopic (c : StateCall) (peer : PeerID) (t topic : TopicID) :
    (c.dropPeerTopic peer topic).2.Recorded p t ↔ c.Recorded p t ∧ ¬(p = peer ∧ t = topic) := by
  unfold dropPeerTopic
  dsimp only
  split
  next hnone =>
    refine (and_iff_left_of_imp ?_).symm
    rintro hrec ⟨rfl, rfl⟩
    exact len_eq_zero.mp hnone _ hrec
  · by_cases hp : p = peer
    · subst hp
      split
      · simp [State.Recorded, State.topicsOf, and_comm]
      · -- the last record goes with the peer's entry
        rename_i hlast
        have hnot := len_eq_zero.mp (not_not.mp hlast) t
        rw [mem_keys_delete] at hnot
        simp only [State.Recorded, State.topicsOf, get?_delete, if_true, Option.getD_none,
          not_mem_keys_empty, true_and, false_iff]
        exact fun h => hnot h.symm
    · split <;> simp [State.Recorded, State.topicsOf, hp]

lemma dropPeerTopic_eq_true_iff (c : StateCall) (peer : PeerID) (topic : TopicID) :
    (c.dropPeerTopic peer topic).1 = true ↔
      c.Recorded peer topic ∧ ∀ t, c.Recorded peer t → t = topic := by
  unfold dropPeerTopic
  dsimp only
  split
  next hnone =>
    -- nothing is recorded for the peer, this topic neither
    rw [len_eq_zero] at hnone
    simp only [Bool.false_eq_true, false_iff, not_and]
    exact fun hrec => absurd hrec (hnone topic)
  next hsome =>
    split
    next hleft =>
      rw [Ne, len_eq_zero, not_forall] at hleft
      obtain ⟨t, ht⟩ := hleft
      obtain ⟨hne, ht⟩ := mem_keys_delete.mp (not_not.mp ht)
      simp only [Bool.false_eq_true, false_iff, not_and]
      exact fun _ honly => hne (honly t ht)
    next hlast =>
      have honly : ∀ t, c.Recorded peer t → t = topic := by
        intro t ht
        by_contra hne
        exact len_eq_zero.mp (not_not.mp hlast) t (mem_keys_delete.mpr ⟨hne, ht⟩)
      rw [len_eq_zero, not_forall] at hsome
      obtain ⟨t, ht⟩ := hsome
      simp only [true_iff]
      exact ⟨honly t (not_not.mp ht) ▸ not_not.mp ht, honly⟩

lemma dropPeerTopic_frame (c : StateCall) (peer : PeerID) (topic : TopicID) :
    (c.dropPeerTopic peer topic).2.topics = c.topics ∧ (c.dropPeerTopic peer topic).2.out = c.out := by
  unfold dropPeerTopic
  dsimp only
  split
  · exact ⟨rfl, rfl⟩
  · split <;> exact ⟨rfl, rfl⟩

/-- Only the records of the topic go, with the peers to disconnect. -/
structure Drops (topic : TopicID) (gone : PeerID → Prop) (c c' : StateCall) : Prop where
  topics : c'.topics = c.topics
  recorded : ∀ p t, c'.Recorded p t ↔ c.Recorded p t ∧ ¬(t = topic ∧ gone p)
  out : ∀ p, .disconnectPeer p ∈ c'.out ↔ .disconnectPeer p ∈ c.out ∨
    gone p ∧ c.Recorded p topic ∧ ∀ t, c.Recorded p t → t = topic

lemma drops_emit (hgone : ∀ p, ¬gone p) {out : OutEvent}
    (hout : ∀ p, out ≠ .disconnectPeer p) : Drops topic gone c (c.emit out) where
  topics := rfl
  recorded p _ := (and_iff_left fun h => hgone p h.2).symm
  out p := by simp [emit, hgone p, (hout p).symm]

lemma drops_handleTopicOut (c : StateCall) (topic : TopicID) (ev : TopicOutEvent) :
    Drops topic (ev = .disconnectPeer ·) c (c.handleTopicOut topic ev) := by
  cases ev with
  | disconnectPeer dest =>
    obtain ⟨htopics, hout⟩ := c.dropPeerTopic_frame dest topic
    have hlast := c.dropPeerTopic_eq_true_iff dest topic
    have hrecorded' : ∀ p t, (c.dropPeerTopic dest topic).2.Recorded p t ↔ c.Recorded p t ∧
        ¬(t = topic ∧ TopicOutEvent.disconnectPeer dest = .disconnectPeer p) := by
      intro p t
      rw [recorded_dropPeerTopic, TopicOutEvent.disconnectPeer.injEq, eq_comm (a := dest),
        and_comm (a := p = dest)]
    unfold handleTopicOut
    dsimp only
    split
    next hdrop =>
      refine ⟨htopics, hrecorded', fun p => ?_⟩
      simp only [emit, hout, mem_append, mem_singleton, OutEvent.disconnectPeer.injEq,
        TopicOutEvent.disconnectPeer.injEq, eq_comm (a := p)]
      refine or_congr_right (and_iff_left_of_imp ?_).symm
      rintro rfl
      exact hlast.mp hdrop
    next hdrop =>
      refine ⟨htopics, hrecorded', fun p => ?_⟩
      rw [hout]
      refine (or_iff_left ?_).symm
      rintro ⟨heq, hrec⟩
      obtain rfl := TopicOutEvent.disconnectPeer.inj heq
      exact hdrop (hlast.mpr hrec)
  | _ => exact drops_emit (by simp) (by simp)

lemma drops_foldl (c : StateCall) (topic : TopicID) (outs : List TopicOutEvent) :
    Drops topic (.disconnectPeer · ∈ outs) c (outs.foldl (handleTopicOut topic) c) := by
  induction outs generalizing c with
  | nil => constructor <;> simp
  | cons ev outs ih =>
    have hone := c.drops_handleTopicOut topic ev
    have hrest := ih (c.handleTopicOut topic ev)
    rw [foldl_cons]
    refine ⟨hrest.topics.trans hone.topics, fun p t => ?_, fun p => ?_⟩
    · rw [hrest.recorded, hone.recorded, mem_cons, eq_comm (a := ev)]
      tauto
    · rw [hrest.out, hone.out, hone.recorded]
      -- a second disconnect of the peer finds nothing recorded
      by_cases hev : TopicOutEvent.disconnectPeer p = ev
      · simp [hev]
      · simp [hone.recorded, ← eq_comm (a := TopicOutEvent.disconnectPeer p), hev]

variable {idOf : Bytes → MessageID}

lemma deliver_of_get?_none (hst : c.topics.get? topic = none) (ev : TopicInEvent) :
    c.deliver idOf topic ev = c := by rw [deliver, hst]

lemma drops_deliver (idOf : Bytes → MessageID)
    (hst : c.topics.get? topic = some st) (ev : TopicInEvent) :
    Drops topic (.disconnectPeer · ∈ (st.handle idOf ev).2)
      { c with topics := c.topics.set topic (st.handle idOf ev).1 } (c.deliver idOf topic ev) := by
  unfold deliver
  rw [hst]
  exact drops_foldl { c with topics := _ } topic _

end StateCall

/-! ## Active peers are recorded -/

/-- An active peer is recorded for its topic. -/
structure State.Linked (s : State) : Prop where
  wellFormed : ∀ topic st, s.topics.get? topic = some st → st.swarm.WellFormed
  recorded : ∀ topic st, s.topics.get? topic = some st → ∀ p ∈ st.swarm.active, s.Recorded p topic

structure StateCall.Linked (c : StateCall) : Prop extends c.toState.Linked where
  closed : ∀ p, .disconnectPeer p ∈ c.out → ∀ topic, ¬c.Recorded p topic

namespace StateCall

variable {idOf : Bytes → MessageID} {newSource : ℕ → Rand} {c : StateCall}

lemma Linked.deliver (h : c.Linked) (topic : TopicID) (ev : TopicInEvent)
    (hsender : ∀ p, ev.input.sender = some p → c.Recorded p topic) :
    (c.deliver idOf topic ev).Linked := by
  cases hst : c.topics.get? topic with
  | none =>
    rw [deliver_of_get?_none hst]
    exact h
  | some st =>
    have hdrops := drops_deliver idOf hst ev
    have hserves := TopicState.serves_handle idOf (h.wellFormed topic st hst) ev
    refine ⟨⟨?_, ?_⟩, ?_⟩
    · intro t st' hst'
      rcases of_get?_set (hdrops.topics ▸ hst') with ⟨-, rfl⟩ | ⟨-, hst'⟩
      · exact hserves.wellFormed
      · exact h.wellFormed t st' hst'
    · intro t st' hst' p hp
      rw [hdrops.recorded]
      rcases of_get?_set (hdrops.topics ▸ hst') with ⟨rfl, rfl⟩ | ⟨ht, hst'⟩
      · -- who is active in the topic now was so before, or has sent the message
        refine ⟨?_, fun hdrop => hserves.closed p hdrop.2 hp⟩
        exact (hserves.entered p hp).elim (h.recorded t st hst p) (hsender p)
      · exact ⟨h.recorded t st' hst' p hp, fun hdrop => ht hdrop.1⟩
    · intro p hp t hrec
      obtain ⟨hrec, hkept⟩ := (hdrops.recorded p t).mp hrec
      rcases (hdrops.out p).mp hp with hp | ⟨hdrop, -, honly⟩
      · exact h.closed p hp t hrec
      · exact hkept ⟨honly t hrec, hdrop⟩

lemma Linked.deliverAll (idOf : Bytes → MessageID) (h : c.Linked) (ev : TopicInEvent)
    (hsender : ev.input.sender = none) : (c.deliverAll idOf ev).Linked := by
  apply foldlRecOn (motive := Linked) c.topicIDs _ h
  intro c' h' topic _
  refine h'.deliver topic ev ?_
  rw [hsender]
  exact fun _ => nofun

lemma Linked.handleTopicEvent (h : c.Linked) (hout : c.out = []) (topic : TopicID)
    (ev : TopicInEvent) : (c.handleTopicEvent idOf topic ev ev.input.sender).Linked := by
  unfold StateCall.handleTopicEvent
  split
  · exact h
  · cases hsender : ev.input.sender with
    | none =>
      refine h.deliver topic ev fun p hp => ?_
      cases hsender.symm.trans hp
    | some sender =>
      have hrecorded := fun p t => c.recorded_record (p := p) sender t topic
      have hrecord : (c.record sender topic).Linked := by
        refine ⟨⟨h.wellFormed, ?_⟩, ?_⟩
        · exact fun t st hst p hp => (hrecorded p t).mpr (.inr (h.recorded t st hst p hp))
        · exact fun p hp => absurd hp (hout ▸ not_mem_nil)
      refine hrecord.deliver topic ev fun p hp => (hrecorded p topic).mpr (.inl ⟨?_, rfl⟩)
      exact Option.some.inj (hp.symm.trans hsender)

lemma mem_topicIDs {s : State} : topic ∈ s.topicIDs ↔ topic ∈ s.topics.keys := mem_mergeSort

lemma Linked.not_mem_active_deliverAll (idOf : Bytes → MessageID) (h : c.Linked)
    (peer : PeerID) (now : Time) :
    ∀ topic st, (c.deliverAll idOf ⟨.peerDisconnected peer, now⟩).topics.get? topic = some st →
        peer ∉ st.swarm.active := by
  -- the topics that are still to hear of it are the rest of the list
  have hloop : ∀ (topics : List TopicID) (c : StateCall), c.Linked →
      (∀ t st, t ∉ topics → c.topics.get? t = some st → peer ∉ st.swarm.active) →
      ∀ t st, (topics.foldl (fun c topic => c.deliver idOf topic
        ⟨.peerDisconnected peer, now⟩) c).topics.get? t = some st → peer ∉ st.swarm.active := by
    intro topics
    induction topics with
    | nil => exact fun c _ hheard t st => hheard t st not_mem_nil
    | cons topic topics ih =>
      intro c h hheard
      refine ih _ (h.deliver topic ⟨.peerDisconnected peer, now⟩ fun _ => nofun) ?_
      intro t st ht hst
      dsimp only at hst
      cases hold : c.topics.get? topic with
      | none =>
        rw [deliver_of_get?_none hold] at hst
        refine hheard t st (not_mem_cons_of_ne_of_not_mem ?_ ht) hst
        rintro rfl
        cases hold.symm.trans hst
      | some old =>
        rw [(drops_deliver idOf hold ⟨.peerDisconnected peer, now⟩).topics] at hst
        rcases of_get?_set hst with ⟨-, rfl⟩ | ⟨hne, hst⟩
        · exact TopicState.not_mem_active_handle_peerDisconnected (h.wellFormed topic old hold) peer now
        · exact hheard t st (not_mem_cons_of_ne_of_not_mem hne ht) hst
  refine hloop c.topicIDs c h fun t st ht hst => absurd (mem_topicIDs.mpr ?_) ht
  exact mem_keys_iff.mpr ⟨st, hst⟩

lemma Linked.joinTopic (h : c.Linked) (topic : TopicID) : (c.joinTopic newSource topic).Linked := by
  unfold StateCall.joinTopic
  split
  · exact h
  · refine ⟨⟨?_, ?_⟩, h.closed⟩
    · intro t st hst
      rcases of_get?_set hst with ⟨-, rfl⟩ | ⟨-, hst⟩
      · exact HyparviewState.wellFormed_newHyparviewState _ _ _ _
      · exact h.wellFormed t st hst
    · intro t st hst p hp
      rcases of_get?_set hst with ⟨-, rfl⟩ | ⟨-, hst⟩
      · exact absurd hp not_mem_nil
      · exact h.recorded t st hst p hp

lemma Linked.handleCommand (h : c.Linked) (hout : c.out = []) (topic : TopicID)
    (command : TopicCommand) (now : Time) :
    (c.handleCommand idOf newSource topic command now).Linked := by
  -- a topic that is gone asks for no record
  have hquit : ∀ c' : StateCall, c'.Linked →
      (if command = .quit then { c' with topics := c'.topics.delete topic } else c').Linked := by
    intro c' h'
    split
    · exact ⟨⟨fun t st hst => h'.wellFormed t st (of_get?_delete hst).2,
        fun t st hst => h'.recorded t st (of_get?_delete hst).2⟩, h'.closed⟩
    · exact h'
  have hjoin : (c.joinTopic newSource topic).out = [] := by
    unfold StateCall.joinTopic
    split <;> exact hout
  refine hquit _ ?_
  cases command with
  | join peers => exact (h.joinTopic topic).handleTopicEvent hjoin topic ⟨.command (.join peers), now⟩
  | _ => exact h.handleTopicEvent hout topic ⟨.command _, now⟩

theorem Linked.handleInput (h : c.Linked) (hout : c.out = []) (now : Time) (input : Input) :
    (c.handleInput idOf newSource now input).Linked := by
  cases input with
  | recvMessage sender message =>
    exact h.handleTopicEvent hout message.topic ⟨.recvMessage sender message.message, now⟩
  | command topic command => exact h.handleCommand hout topic command now
  | timerExpired timer =>
    exact h.handleTopicEvent hout timer.topic ⟨.timerExpired timer.timer, now⟩
  | peerDisconnected peer =>
    have hall := h.deliverAll idOf ⟨.peerDisconnected peer, now⟩ rfl
    have hnot := h.not_mem_active_deliverAll idOf peer now
    have hforget := fun p t => recorded_forget (p := p)
      (c.deliverAll idOf ⟨.peerDisconnected peer, now⟩) peer t
    refine ⟨⟨hall.wellFormed,
      fun t st hst p hp => (hforget p t).mpr ⟨?_, hall.recorded t st hst p hp⟩⟩,
      fun p hp t hrec => hall.closed p hp t ((hforget p t).mp hrec).2⟩
    -- all records of the lost peer go, but it is not active anywhere
    rintro rfl
    exact hnot t st hst hp
  | updatePeerData data =>
    have hdata : ({ c with meData := data } : StateCall).Linked := { h with }
    exact hdata.deliverAll idOf _ rfl
  | unknown kind => exact h

end StateCall

namespace State

variable {idOf : Bytes → MessageID} {newSource : ℕ → Rand} {s : State}

/-- The call of `Handle` that an input makes. -/
def call (messageIDFromContent : Bytes → MessageID) (newSource : ℕ → Rand) (s : State)
    (ev : InEvent) : StateCall :=
  (StateCall.mk s []).handleInput messageIDFromContent newSource ev.now ev.input

lemma Linked.call (idOf : Bytes → MessageID) (newSource : ℕ → Rand) (h : s.Linked) (ev : InEvent) :
    (s.call idOf newSource ev).Linked :=
  StateCall.Linked.handleInput ⟨h, fun _ hp => absurd hp not_mem_nil⟩ rfl ev.now ev.input

lemma linked_newState (me : PeerID) (data : PeerData) (config : Config) (rand : Rand) :
    (newState me data config rand).Linked := ⟨fun _ _ => nofun, fun _ _ => nofun⟩

lemma linked_run (h : s.Linked) (evs : List InEvent) : (s.run idOf newSource evs).Linked := by
  apply foldlRecOn (motive := Linked) evs _ h
  intro s' h' ev _
  exact (h'.call idOf newSource ev).toLinked

/-- **A shared connection is not closed while a topic uses it.**  In every state of a node the topics
in which a peer is active are recorded for it, and whenever a call asks for a peer's connection to be
closed, the peer is active in no joined topic after the call. -/
theorem run_sharedConnections (messageIDFromContent : Bytes → MessageID) (newSource : ℕ → Rand)
    (me : PeerID) (data : PeerData) (config : Config) (rand : Rand) (evs : List InEvent) :
    let s := (newState me data config rand).run messageIDFromContent newSource evs
    (∀ topic st, s.topics.get? topic = some st → ∀ p ∈ st.swarm.active,
      ∃ topics, s.peerTopics.get? p = some topics ∧ topic ∈ topics.keys) ∧
    ∀ ev p, .disconnectPeer p ∈ (s.handle messageIDFromContent newSource ev).2 →
      ∀ topic st, (s.handle messageIDFromContent newSource ev).1.topics.get? topic = some st →
        p ∉ st.swarm.active := by
  intro s
  have h : s.Linked := linked_run (linked_newState me data config rand) evs
  constructor
  · intro topic st hst p hp
    have hrec := h.recorded topic st hst p hp
    unfold Recorded topicsOf at hrec
    cases hget : s.peerTopics.get? p with
    | none =>
      rw [hget] at hrec
      exact absurd hrec not_mem_keys_empty
    | some topics =>
      rw [hget] at hrec
      exact ⟨topics, rfl, hrec⟩
  · intro ev p hout topic st hst hp
    have hcall := h.call messageIDFromContent newSource ev
    exact hcall.closed p hout topic (hcall.recorded topic st hst p hp)

end State

/-! ## Recorded topics are joined -/

def State.Joined (s : State) : Prop := ∀ p topic, s.Recorded p topic → topic ∈ s.topics.keys

namespace StateCall

variable {idOf : Bytes → MessageID} {newSource : ℕ → Rand} {c : StateCall}

lemma joined_deliver (h : c.Joined) (topic : TopicID) (ev : TopicInEvent) :
    (c.deliver idOf topic ev).Joined := by
  cases hst : c.topics.get? topic with
  | none =>
    rw [deliver_of_get?_none hst]
    exact h
  | some st =>
    have hdrops := drops_deliver idOf hst ev
    intro p t hrec
    rw [hdrops.topics, mem_keys_set]
    exact .inr (h p t ((hdrops.recorded p t).mp hrec).1)

lemma joined_deliverAll (idOf : Bytes → MessageID) (h : c.Joined) (ev : TopicInEvent) :
    (c.deliverAll idOf ev).Joined := by
  apply foldlRecOn (motive := fun c : StateCall => c.Joined) c.topicIDs _ h
  intro c' h' topic _
  exact joined_deliver h' topic ev

lemma joined_handleTopicEvent (h : c.Joined) (topic : TopicID) (ev : TopicInEvent)
    (received : Option PeerID) : (c.handleTopicEvent idOf topic ev received).Joined := by
  unfold StateCall.handleTopicEvent
  split
  · exact h
  next hjoined =>
    have htopic : topic ∈ c.topics.keys := by simpa using hjoined
    cases received with
    | none => exact joined_deliver h topic ev
    | some sender =>
      refine joined_deliver (fun p t hrec => ?_) topic ev
      rcases (c.recorded_record sender t topic).mp hrec with ⟨-, rfl⟩ | hrec
      · exact htopic
      · exact h p t hrec

lemma joined_joinTopic (h : c.Joined) (topic : TopicID) : (c.joinTopic newSource topic).Joined := by
  unfold StateCall.joinTopic
  split
  · exact h
  · exact fun p t hrec => mem_keys_set.mpr (.inr (h p t hrec))

lemma joined_quit_iff (hlinked : c.Linked) (h : c.Joined)
    (hst : c.topics.get? topic = some st) (now : Time) :
    (c.handleCommand idOf newSource topic .quit now).Joined ↔
      ∀ p, c.Recorded p topic → p ∈ st.swarm.active := by
  obtain ⟨htopics, hrecorded, -⟩ := drops_deliver idOf hst ⟨.command .quit, now⟩
  have hdrop := TopicState.disconnectPeer_mem_handle_quit idOf (hlinked.wellFormed topic st hst) now
  have hcall : c.handleCommand idOf newSource topic .quit now =
      { c.deliver idOf topic ⟨.command .quit, now⟩ with
        topics := (c.deliver idOf topic ⟨.command .quit, now⟩).topics.delete topic } := by
    have hcontains : c.topics.contains topic = true := by rw [GoMap.contains, hst, Option.isSome_some]
    simp [handleCommand, handleTopicEvent, hcontains]
  -- `handleQuit` disconnects the active peers, and only a disconnect drops a record
  have hafter : ∀ p t, (c.handleCommand idOf newSource topic .quit now).Recorded p t ↔
      c.Recorded p t ∧ ¬(t = topic ∧ p ∈ st.swarm.active) := by
    intro p t
    rw [hcall, ← hdrop p]
    exact hrecorded p t
  have hkeys : ∀ t, t ∈ (c.handleCommand idOf newSource topic .quit now).topics.keys ↔
      t ≠ topic ∧ t ∈ c.topics.keys := by
    intro t
    rw [hcall, mem_keys_delete, htopics, mem_keys_set]
    exact and_congr_right fun hne => or_iff_right hne
  constructor
  · intro hjoined p hrec
    by_contra hnot
    exact ((hkeys topic).mp (hjoined p topic ((hafter p topic).mpr ⟨hrec, fun h => hnot h.2⟩))).1 rfl
  · intro hclean p t hafterRec
    obtain ⟨hrec, hkept⟩ := (hafter p t).mp hafterRec
    refine (hkeys t).mpr ⟨?_, h p t hrec⟩
    intro ht
    exact hkept ⟨ht, hclean p (ht ▸ hrec)⟩

lemma joined_handleInput (h : c.Joined) (now : Time) (hquit : ∀ topic, input ≠ .command topic .quit) :
    (c.handleInput idOf newSource now input).Joined := by
  cases input with
  | updatePeerData data =>
    have hdata : ({ c with meData := data } : StateCall).Joined := h
    exact joined_deliverAll idOf hdata _
  | unknown kind => exact h
  | peerDisconnected peer =>
    have hall := joined_deliverAll idOf h ⟨.peerDisconnected peer, now⟩
    exact fun p t hrec => hall p t ((recorded_forget _ peer t).mp hrec).2
  | command topic command =>
    have hne : command ≠ .quit := fun heq => hquit topic (heq ▸ rfl)
    simp only [handleInput, handleCommand, if_neg hne]
    cases command with
    | join peers => exact joined_handleTopicEvent (joined_joinTopic h topic) _ _ _
    | _ => exact joined_handleTopicEvent h _ _ _
  | _ => exact joined_handleTopicEvent h _ _ _

lemma joined_quit_of_get?_none (h : c.Joined) (hst : c.topics.get? topic = none)
    (now : Time) : (c.handleCommand idOf newSource topic .quit now).Joined := by
  have hcontains : c.topics.contains topic = false := by rw [GoMap.contains, hst, Option.isSome_none]
  intro p t hrec
  simp only [handleCommand, handleTopicEvent, hcontains] at hrec ⊢
  have hkeys := h p t hrec
  refine mem_keys_delete.mpr ⟨?_, hkeys⟩
  rintro rfl
  rw [← GoMap.contains_iff, hcontains] at hkeys
  cases hkeys

end StateCall

namespace State

variable {idOf : Bytes → MessageID} {newSource : ℕ → Rand} {s : State}

/-- If the input quits a joined topic, then every peer for which the topic is recorded is active in
it. -/
def QuitsClean (s : State) (ev : InEvent) : Prop :=
  ∀ topic st, ev.input = .command topic .quit → s.topics.get? topic = some st →
    ∀ p, s.Recorded p topic → p ∈ st.swarm.active

/-- **A call leaves a stale topic exactly when it quits one that is recorded for a peer not active
in it.** -/
theorem joined_handle_iff (hlinked : s.Linked) (h : s.Joined) (ev : InEvent) :
    (s.handle idOf newSource ev).1.Joined ↔ s.QuitsClean ev := by
  have hstart : (StateCall.mk s []).Joined := h
  by_cases hquit : ∃ topic, ev.input = .command topic .quit
  · obtain ⟨topic, hinput⟩ := hquit
    have hhandle : (s.handle idOf newSource ev).1 = ((StateCall.mk s []).handleCommand
        idOf newSource topic .quit ev.now).toState := by
      rw [handle, hinput]
      rfl
    rw [hhandle]
    cases hst : s.topics.get? topic with
    | none =>
      refine iff_of_true (StateCall.joined_quit_of_get?_none hstart hst _) ?_
      intro t st heq hget
      cases hinput.symm.trans heq
      cases hst.symm.trans hget
    | some st =>
      have hcall : (StateCall.mk s []).Linked := ⟨hlinked, fun _ hp => absurd hp not_mem_nil⟩
      refine (StateCall.joined_quit_iff hcall hstart hst ev.now).trans ⟨?_, ?_⟩
      · intro hclean t st' heq hget
        cases hinput.symm.trans heq
        cases hst.symm.trans hget
        exact hclean
      · exact fun hclean => hclean topic st hinput hst
  · rw [not_exists] at hquit
    exact iff_of_true (StateCall.joined_handleInput hstart ev.now hquit)
      fun topic _ heq => absurd heq (hquit topic)

/-- No stale topic keeps a peer connected: the topics recorded for a peer are joined, so that a
disconnect from the last joined one among them closes the connection. -/
structure NoStaleTopic (s : State) : Prop where
  joined : ∀ p topic, s.Recorded p topic → topic ∈ s.topics.keys
  closes : ∀ p topic, s.Recorded p topic → (∀ t ∈ s.topics.keys, s.Recorded p t → t = topic) →
    .disconnectPeer p ∈ ((StateCall.mk s []).handleTopicOut topic (.disconnectPeer p)).out

lemma noStaleTopic_iff_joined : s.NoStaleTopic ↔ s.Joined := by
  refine ⟨fun h => h.joined, fun h => ⟨h, fun p topic hrec hlast => ?_⟩⟩
  have hdrops := (StateCall.mk s []).drops_handleTopicOut topic (.disconnectPeer p)
  exact (hdrops.out p).mpr (.inr ⟨rfl, hrec, fun t ht => hlast t (h p t ht) ht⟩)

/-- **A run leaves no stale topic exactly when, at each quit of a joined topic, the topic is recorded
for peers active in it alone.** -/
theorem run_noStaleTopic_iff (messageIDFromContent : Bytes → MessageID) (newSource : ℕ → Rand)
    (me : PeerID) (data : PeerData) (config : Config) (rand : Rand) (evs : List InEvent) :
    EachState (fun s ev => (s.handle messageIDFromContent newSource ev).1) NoStaleTopic
        (newState me data config rand) evs ↔
      EachStep (fun s ev => (s.handle messageIDFromContent newSource ev).1) QuitsClean
        (newState me data config rand) evs := by
  have hnew : (newState me data config rand).NoStaleTopic :=
    noStaleTopic_iff_joined.mpr fun p topic hrec => absurd hrec not_mem_keys_empty
  refine eachState_iff_of_inv Linked ?_ ?_ (linked_newState me data config rand) hnew evs
  · exact fun s ev h => (h.call messageIDFromContent newSource ev).toLinked
  · intro s ev hlinked hgood
    rw [noStaleTopic_iff_joined]
    exact joined_handle_iff hlinked (noStaleTopic_iff_joined.mp hgood) ev

/-- A prune from a peer that is not a neighbor records its topic, and the quit of that topic does not
clear the record.  When the peer later joins another topic and that one is quit too, the peer is active
nowhere, no topic is joined, and still its connection is not closed. -/
theorem staleTopic_after_quit :
    let me : PeerID := .replicate 32 0
    let p : PeerID := .replicate 32 1
    let a : TopicID := .replicate 32 2
    let b : TopicID := .replicate 32 3
    let handle := fun (s : State) ev => s.handle (fun _ => me) (fun _ => ⟨fun _ => 0, 0⟩) ⟨ev, 1⟩
    let s₀ := newState me [] ⟨defaultTopicConfig, 4096⟩ ⟨fun _ => 0, 0⟩
    let s₁ := (handle s₀ (.command a (.join []))).1
    let s₂ := (handle s₁ (.recvMessage p ⟨a, .gossip .prune⟩)).1
    let s₃ := (handle s₂ (.command a .quit)).1
    let s₄ := (handle s₃ (.command b (.join []))).1
    let s₅ := (handle s₄ (.recvMessage p ⟨b, .swarm (.join none)⟩)).1
    let q := handle s₅ (.command b .quit)
    ((s₃.topicsOf p).keys = [a] ∧ s₃.topics.keys = []) ∧
      (∃ st, s₅.topics.get? b = some st ∧ st.swarm.active = [p]) ∧
      q.1.topics.keys = [] ∧ .disconnectPeer p ∉ q.2 :=
  ⟨by decide, ⟨_, rfl, by decide⟩, by decide, by decide⟩

end State

/-! ## The topics that are joined -/

namespace StateCall

variable {topic : TopicID}

variable (idOf : Bytes → MessageID) (c : StateCall) (t : TopicID) (ev : TopicInEvent)

lemma mem_keys_deliver : topic ∈ (c.deliver idOf t ev).topics.keys ↔ topic ∈ c.topics.keys := by
  cases hst : c.topics.get? t with
  | none => rw [deliver_of_get?_none hst]
  | some st =>
    rw [(drops_deliver idOf hst ev).topics, mem_keys_set]
    refine or_iff_right_of_imp ?_
    rintro rfl
    exact mem_keys_iff.mpr ⟨st, hst⟩

lemma mem_keys_deliverAll (ev : TopicInEvent) :
    topic ∈ (c.deliverAll idOf ev).topics.keys ↔ topic ∈ c.topics.keys := by
  apply List.foldlRecOn (motive := fun c' : StateCall => topic ∈ c'.topics.keys ↔ topic ∈ c.topics.keys)
    c.topicIDs _ Iff.rfl
  exact fun c' h t _ => (mem_keys_deliver idOf c' t ev).trans h

lemma mem_keys_handleTopicEvent (received : Option PeerID) :
    topic ∈ (c.handleTopicEvent idOf t ev received).topics.keys ↔ topic ∈ c.topics.keys := by
  unfold handleTopicEvent
  split
  · rfl
  · cases received with
    | none => exact mem_keys_deliver _ _ _ _
    | some sender => exact mem_keys_deliver idOf (c.record sender t) _ _

lemma mem_keys_joinTopic (newSource : ℕ → Rand) (c : StateCall) (t : TopicID) :
    topic ∈ (c.joinTopic newSource t).topics.keys ↔ topic = t ∨ topic ∈ c.topics.keys := by
  unfold joinTopic
  split
  next ht =>
    refine (or_iff_right_of_imp ?_).symm
    rintro rfl
    exact contains_iff.mp ht
  · exact mem_keys_set

lemma mem_keys_handleInput (newSource : ℕ → Rand) (c : StateCall) (now : Time) (input : Input) :
    topic ∈ (c.handleInput idOf newSource now input).topics.keys ↔
      (topic ∈ c.topics.keys ∨ ∃ peers, input = .command topic (.join peers)) ∧
        input ≠ .command topic .quit := by
  cases input with
  | command t command =>
    cases command with
    | join peers =>
      refine (mem_keys_handleTopicEvent idOf _ t _ none).trans ?_
      rw [mem_keys_joinTopic]
      simp [or_comm, eq_comm (a := topic)]
    | quit =>
      refine mem_keys_delete.trans ?_
      rw [mem_keys_handleTopicEvent]
      simp [and_comm, eq_comm (a := topic)]
    | _ =>
      refine (mem_keys_handleTopicEvent idOf c t _ none).trans ?_
      simp
  | peerDisconnected peer =>
    refine (mem_keys_deliverAll idOf c _).trans ?_
    simp
  | updatePeerData data =>
    refine (mem_keys_deliverAll idOf { c with meData := data } _).trans ?_
    simp
  | unknown kind => simp [handleInput]
  | _ =>
    rw [handleInput, mem_keys_handleTopicEvent]
    simp

end StateCall

lemma State.mem_keys_handle (idOf : Bytes → MessageID) (newSource : ℕ → Rand)
    (s : State) (ev : InEvent) (topic : TopicID) : topic ∈ (s.handle idOf newSource ev).1.topics.keys ↔
      (topic ∈ s.topics.keys ∨ ∃ peers, ev.input = .command topic (.join peers)) ∧
        ev.input ≠ .command topic .quit :=
  StateCall.mem_keys_handleInput idOf newSource (StateCall.mk s []) ev.now ev.input

end Iroh.GossipProto
