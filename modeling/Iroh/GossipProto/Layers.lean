import Iroh.GossipProto.Topic
import Iroh.GossipProto.Views

/-!
# Membership and broadcast in step

Reference: `internal/gossipproto/plumtree.go`, `topic.go`.

PlumTree sorts the peers it knows into an eager and a lazy set.  Messages and timers only move peers between
the two, or make one known (`Regroups`); a peer is forgotten by `onNeighborDown` alone.
-/

namespace Iroh.GossipProto

open List GoMap

/-! ## The eager and lazy sets -/

def PlumtreeState.Disjoint (s : PlumtreeState) : Prop := ∀ p ∈ s.eager.keys, p ∉ s.lazy.keys

def PlumtreeState.Knows (s : PlumtreeState) (p : PeerID) : Prop :=
  p ∈ s.eager.keys ∨ p ∈ s.lazy.keys

def Regroups (s s' : PlumtreeState) : Prop :=
  (s.Disjoint → s'.Disjoint) ∧ ∀ p, s.Knows p → s'.Knows p

lemma Regroups.refl (s : PlumtreeState) : Regroups s s := ⟨id, fun _ => id⟩

lemma Regroups.trans (h : Regroups s s') (h' : Regroups s' s'') :
    Regroups s s'' := ⟨h'.1 ∘ h.1, fun p => h'.2 p ∘ h.2 p⟩

namespace PlumtreeCall

variable (c : PlumtreeCall) (peer : PeerID)

lemma regroups_addEager : Regroups c (c.addEager peer) := by
  constructor
  · intro h p
    simp only [addEager, mem_keys_set, mem_keys_delete, not_and_or]
    rintro (rfl | hp)
    · exact .inl (not_not.mpr rfl)
    · exact .inr (h p hp)
  · intro p
    simp only [PlumtreeState.Knows, addEager]
    by_cases hp : p = peer <;> simp [hp]

lemma regroups_addLazy : Regroups c (c.addLazy peer) := by
  constructor
  · intro h p
    simp only [addLazy, mem_keys_set, mem_keys_delete, not_or]
    exact fun hp => ⟨hp.1, h p hp.2⟩
  · intro p
    simp only [PlumtreeState.Knows, addLazy]
    by_cases hp : p = peer <;> simp [hp]

lemma regroups_foldl {β : Type} {f : PlumtreeCall → β → PlumtreeCall}
    (hf : ∀ (c : PlumtreeCall) b, Regroups c (f c b).toPlumtreeState) (l : List β) (c : PlumtreeCall) :
    Regroups c (l.foldl f c).toPlumtreeState := by
  apply foldlRecOn (motive := fun c' : PlumtreeCall => Regroups c c') l f (.refl _)
  intro c' h b _
  exact h.trans (hf c' b)

lemma regroups_eagerPush (message : Gossip) (sender : PeerID) :
    Regroups c (c.eagerPush message sender) := by
  refine regroups_foldl (fun c peer => ?_) _ _
  split <;> exact .refl _

lemma regroups_lazyPush (message : Gossip) (sender : PeerID) :
    Regroups c (c.lazyPush message sender) := by
  have hqueue : ∀ ihave, Regroups c (c.queueIHave ihave sender) := by
    intro ihave
    refine regroups_foldl (fun c peer => ?_) _ _
    split <;> exact .refl c.toPlumtreeState
  unfold lazyPush
  split
  · dsimp only
    split <;> exact hqueue _
  · exact .refl _

lemma regroups_optimizeTree (sender : PeerID) (message : Gossip) (ihaves : List GraftTarget) :
    Regroups c (c.optimizeTree sender message ihaves) := by
  have hgraft : ∀ best, Regroups c (c.graftBest best) := by
    intro best
    unfold graftBest
    split
    · exact .refl _
    · exact c.regroups_addEager best.peer
  unfold optimizeTree
  split
  · dsimp only
    split
    · exact (hgraft _).trans (regroups_addLazy _ sender)
    · exact .refl _
  · exact .refl _

lemma regroups_broadcast (idOf : Bytes → MessageID) (c : PlumtreeCall) (content : Bytes)
    (scope : Scope) (now : Time) : Regroups c (c.broadcast idOf content scope now) := by
  unfold broadcast
  split
  · exact regroups_eagerPush _ _ _
  · exact (regroups_lazyPush (c.remember _ _ now) _ _).trans (regroups_eagerPush _ _ _)

lemma regroups_onSwarmGossip (sender : PeerID) (message : Gossip) (round : UInt16) (now : Time) :
    Regroups c (c.onSwarmGossip sender message round now) := by
  have hforget : ∀ (targets : List GraftTarget) (c : PlumtreeCall), Regroups c
      (targets.foldl (fun c target => c.forgetMissing target.peer) c).toPlumtreeState :=
    regroups_foldl fun c target => .refl c.toPlumtreeState
  have hhop : ∀ c' : PlumtreeCall, Regroups c c' →
      Regroups c (if round > c'.stats.maxLastDeliveryHop then
        { c' with stats := { c'.stats with maxLastDeliveryHop := round } } else c').toPlumtreeState := by
    intro c' h
    split <;> exact h
  refine hhop _ (Regroups.trans (Regroups.trans ?_ (hforget _ _)) (regroups_optimizeTree _ _ _ _))
  exact (regroups_eagerPush (c.remember _ _ now) _ _).trans (regroups_lazyPush _ _ _)

lemma regroups_onGossip (idOf : Bytes → MessageID) (c : PlumtreeCall) (sender : PeerID)
    (message : Gossip) (now : Time) : Regroups c (c.onGossip idOf sender message now) := by
  unfold onGossip
  split
  · exact .refl _
  · split
    · exact c.regroups_addLazy sender
    · split
      · exact c.regroups_onSwarmGossip sender message _ now
      · exact .refl _

lemma regroups_onIHave (sender : PeerID) (ihaves : List IHave) :
    Regroups c (c.onIHave sender ihaves) := by
  refine regroups_foldl (fun c ihave => ?_) _ _
  unfold onIHaveOne
  dsimp only
  split
  · exact .refl _
  · split
    · exact .refl _
    · split <;> exact .refl c.toPlumtreeState

lemma regroups_onSendGraftTimer (id : MessageID) : Regroups c (c.onSendGraftTimer id) := by
  unfold onSendGraftTimer
  dsimp only
  split
  · exact .refl c.toPlumtreeState
  · split
    · exact .refl c.toPlumtreeState
    · exact c.regroups_addEager _

lemma regroups_onGraft (sender : PeerID) (graft : Graft) : Regroups c (c.onGraft sender graft) := by
  unfold onGraft
  dsimp only
  split <;> exact c.regroups_addEager sender

lemma regroups_onDispatchTimer : Regroups c c.onDispatchTimer := by
  have hsend : ∀ (peer : PeerID) (l : List (List IHave)) (c : PlumtreeCall), Regroups c
      (l.foldl (fun c ihaves => c.emit (.sendMessage peer (.iHave ihaves))) c).toPlumtreeState :=
    fun peer => regroups_foldl fun c ihaves => .refl _
  refine Regroups.trans (regroups_foldl (fun c queue => ?_) _ c) (.refl _)
  exact hsend queue.1 _ c

lemma regroups_start (now : Time) : Regroups c (c.start now) := by
  unfold start
  split <;> exact .refl c.toPlumtreeState

lemma regroups_handleInput (idOf : Bytes → MessageID) (c : PlumtreeCall) (now : Time)
    (hdown : ∀ peer, input ≠ .neighborDown peer) : Regroups c (c.handleInput idOf now input) := by
  cases input with
  | recvMessage sender message =>
    have hcount : Regroups c (c.countMessage message) := by
      cases message <;> exact .refl c.toPlumtreeState
    refine hcount.trans ?_
    cases message with
    | gossip message => exact regroups_onGossip _ _ _ _ _
    | prune => exact regroups_addLazy _ _
    | graft message => exact regroups_onGraft _ _ _
    | iHave ihaves => exact regroups_onIHave _ _ _
    | unknown kind => exact .refl _
  | broadcast content scope => exact regroups_broadcast _ _ _ _ _
  | timerExpired timer =>
    cases timer with
    | sendGraft id => exact c.regroups_onSendGraftTimer id
    | dispatchLazyPush => exact c.regroups_onDispatchTimer
    | evictCache => exact .refl c.toPlumtreeState
    | unknown kind => exact .refl _
  | neighborUp peer => exact c.regroups_addEager peer
  | neighborDown peer => exact absurd rfl (hdown peer)
  | unknown kind => exact .refl _

end PlumtreeCall

namespace PlumtreeState

variable (idOf : Bytes → MessageID) (s : PlumtreeState)

lemma regroups_handle (ev : PlumtreeInEvent) (hdown : ∀ peer, ev.input ≠ .neighborDown peer) :
    Regroups s (s.handle idOf ev).1 :=
  ((PlumtreeCall.mk s []).regroups_start ev.now).trans
    (PlumtreeCall.regroups_handleInput _ _ _ hdown)

lemma knows_handle_neighborUp (peer : PeerID) (now : Time) :
    (s.handle idOf ⟨.neighborUp peer, now⟩).1.Knows peer :=
  .inl (mem_keys_set.mpr (.inl rfl))

lemma handle_neighborDown (peer : PeerID) (now : Time) :
    (s.Disjoint → (s.handle idOf ⟨.neighborDown peer, now⟩).1.Disjoint) ∧
      ∀ p, p ≠ peer → s.Knows p → (s.handle idOf ⟨.neighborDown peer, now⟩).1.Knows p := by
  have hstart := (PlumtreeCall.mk s []).regroups_start now
  constructor
  · intro h p hp hp'
    exact hstart.1 h p (mem_keys_delete.mp hp).2 (mem_keys_delete.mp hp').2
  · intro p hne h
    exact (hstart.2 p h).imp (fun hp => mem_keys_delete.mpr ⟨hne, hp⟩)
      fun hp => mem_keys_delete.mpr ⟨hne, hp⟩

end PlumtreeState

/-! ## Neighbor events of a topic -/

def TopicOutEvent.toggle : TopicOutEvent → Option (Toggle PeerID)
  | .emitEvent (.neighborUp peer) => some (.up peer)
  | .emitEvent (.neighborDown peer) => some (.down peer)
  | _ => none

def topicNeighborEvents (out : List TopicOutEvent) : List (Toggle PeerID) :=
  out.filterMap TopicOutEvent.toggle

lemma topicNeighborEvents_append (out out' : List TopicOutEvent) :
    topicNeighborEvents (out ++ out') = topicNeighborEvents out ++ topicNeighborEvents out' :=
  filterMap_append

lemma topicNeighborEvents_fromPlumtree (events : List PlumtreeOutEvent) :
    topicNeighborEvents (fromPlumtree events) = [] := by
  rw [topicNeighborEvents, fromPlumtree, filterMap_map, filterMap_eq_nil_iff]
  intro ev _
  cases ev <;> rfl

/-- The layers of a topic in step, `A` being the active view before the outputs so far. -/
structure InStep (A : Set PeerID) (c : TopicCall) : Prop where
  wellFormed : c.swarm.WellFormed
  follows : Follows A (topicNeighborEvents c.out) {p | p ∈ c.swarm.active}
  disjoint : c.gossip.Disjoint
  knows : ∀ p ∈ c.swarm.active, c.gossip.Knows p

namespace TopicCall

section Hash

variable {idOf : Bytes → MessageID}

lemma topicNeighborEvents_toGossip (c : TopicCall) (ev : PlumtreeInEvent) :
    topicNeighborEvents (c.toGossip idOf ev).out = topicNeighborEvents c.out := by
  rw [toGossip, topicNeighborEvents_append, topicNeighborEvents_fromPlumtree, append_nil]

variable {A : Set PeerID} {c : TopicCall}

lemma inStep_toGossip (h : InStep A c) (hdisjoint : (c.gossip.handle idOf ev).1.Disjoint)
    (hknows : ∀ p ∈ c.swarm.active, (c.gossip.handle idOf ev).1.Knows p) :
    InStep A (c.toGossip idOf ev) where
  wellFormed := h.wellFormed
  follows := by
    rw [topicNeighborEvents_toGossip]
    exact h.follows
  disjoint := hdisjoint
  knows := hknows

lemma inStep_toGossip_regroups (h : InStep A c)
    (hdown : ∀ peer, ev.input ≠ .neighborDown peer) : InStep A (c.toGossip idOf ev) := by
  have hr := c.gossip.regroups_handle idOf ev hdown
  exact inStep_toGossip h (hr.1 h.disjoint) fun p hp => hr.2 p (h.knows p hp)

lemma fromHyparviewOne_spec (idOf : Bytes → MessageID) (c : TopicCall)
    (ev : HyparviewOutEvent) (hS : ∀ p ∈ S, c.gossip.Knows p) :
    (c.fromHyparviewOne idOf ev).swarm = c.swarm ∧
      topicNeighborEvents (c.fromHyparviewOne idOf ev).out =
        topicNeighborEvents c.out ++ ev.toggle.toList ∧
      (c.gossip.Disjoint → (c.fromHyparviewOne idOf ev).gossip.Disjoint) ∧
      ∀ p ∈ ev.toggle.toList.foldl Toggle.apply S, (c.fromHyparviewOne idOf ev).gossip.Knows p := by
  -- outputs that are no neighbor events are only passed on
  have hpass : ∀ out : TopicOutEvent, out.toggle = none →
      topicNeighborEvents (c.emit out).out = topicNeighborEvents c.out ++ [] := by
    intro out hout
    simp [emit, topicNeighborEvents, hout]
  cases ev with
  | emitEvent event =>
    cases event with
    | neighborUp peer =>
      have hr := c.gossip.regroups_handle idOf ⟨.neighborUp peer, 0⟩ fun _ => nofun
      refine ⟨rfl, ?_, hr.1, ?_⟩
      · exact (topicNeighborEvents_toGossip _ _).trans (topicNeighborEvents_append _ _)
      · rintro p (rfl | hp)
        · exact c.gossip.knows_handle_neighborUp idOf p 0
        · exact hr.2 p (hS p hp)
    | neighborDown peer =>
      have hd := c.gossip.handle_neighborDown idOf peer 0
      refine ⟨rfl, ?_, hd.1, ?_⟩
      · exact (topicNeighborEvents_toGossip _ _).trans (topicNeighborEvents_append _ _)
      · rintro p ⟨hp, hne⟩
        exact hd.2 p hne (hS p hp)
  | _ => exact ⟨rfl, hpass _ rfl, id, hS⟩

lemma fromHyparview_spec (idOf : Bytes → MessageID) (c : TopicCall)
    (events : List HyparviewOutEvent) (hS : ∀ p ∈ S, c.gossip.Knows p) :
    (c.fromHyparview idOf events).swarm = c.swarm ∧
      topicNeighborEvents (c.fromHyparview idOf events).out =
        topicNeighborEvents c.out ++ neighborEvents events ∧
      (c.gossip.Disjoint → (c.fromHyparview idOf events).gossip.Disjoint) ∧
      ∀ p ∈ (neighborEvents events).foldl Toggle.apply S,
        (c.fromHyparview idOf events).gossip.Knows p := by
  induction events generalizing c S with
  | nil => exact ⟨rfl, (append_nil _).symm, id, hS⟩
  | cons ev events ih =>
    obtain ⟨hswarm, hout, hdisjoint, hknows⟩ := c.fromHyparviewOne_spec idOf ev hS
    obtain ⟨hswarm', hout', hdisjoint', hknows'⟩ := ih (c.fromHyparviewOne idOf ev) hknows
    have hcons : neighborEvents (ev :: events) = ev.toggle.toList ++ neighborEvents events := by
      rw [neighborEvents, filterMap_cons]
      cases ev.toggle <;> rfl
    rw [hcons, foldl_append, ← append_assoc, ← hout]
    exact ⟨hswarm'.trans hswarm, hout', hdisjoint' ∘ hdisjoint, hknows'⟩

lemma swarm_toSwarm (c : TopicCall) (ev : HyparviewInEvent) :
    (c.toSwarm idOf ev).swarm = (c.swarm.handle ev).1 :=
  (fromHyparview_spec idOf { c with swarm := (c.swarm.handle ev).1 }
    (c.swarm.handle ev).2 (S := ∅) nofun).1

/-- **The layers stay in step through an input to HyParView**, unless it is a quit. -/
theorem inStep_toSwarm (h : InStep A c) (hquit : ev ≠ .quit) : InStep A (c.toSwarm idOf ev) := by
  have ht := h.wellFormed.tracks_call hquit
  have hfollows : Follows {p | p ∈ c.swarm.active} (neighborEvents (c.swarm.handle ev).2)
      {p | p ∈ (c.swarm.handle ev).1.active} := ht.follows
  obtain ⟨_, hout, hdisjoint, hknows⟩ :=
    fromHyparview_spec idOf { c with swarm := (c.swarm.handle ev).1 }
      (c.swarm.handle ev).2 (S := {p | p ∈ c.swarm.active}) h.knows
  constructor
  · rw [swarm_toSwarm]
    exact ht.views
  · rw [swarm_toSwarm]
    exact hout ▸ h.follows.trans hfollows
  · exact hdisjoint h.disjoint
  · intro p hp
    rw [swarm_toSwarm] at hp
    refine hknows p ?_
    rw [← hfollows.eq_foldl]
    exact hp

lemma inStep_handleCommand (h : InStep A c) (now : Time)
    (hquit : command ≠ .quit) : InStep A (c.handleCommand idOf now command) := by
  cases command with
  | join peers =>
    apply foldlRecOn (motive := InStep A) peers _ h
    intro c' h' peer _
    exact inStep_toSwarm h' nofun
  | broadcast content scope => exact inStep_toGossip_regroups h fun _ => nofun
  | quit => exact absurd rfl hquit
  | unknown kind => exact h

end Hash

end TopicCall

lemma HyparviewState.WellFormed.not_mem_active_peerDisconnected {s : HyparviewState}
    (h : s.WellFormed) (peer : PeerID) : peer ∉ (s.handle (.peerDisconnected peer)).1.active := by
  have hend : ∀ c : HyparviewCall, c.scheduleShuffle.forgetStrangers.active = c.active := by
    intro c
    unfold HyparviewCall.forgetStrangers HyparviewCall.scheduleShuffle
    split <;> rfl
  have hclear : Shed s (.peerDisconnected peer) ((HyparviewCall.mk s []).clearPending peer) :=
    Shed.start.clearPending peer
  show peer ∉ (s.call (.peerDisconnected peer)).active
  rw [HyparviewState.call, hend]
  show peer ∉ ((HyparviewCall.mk s []).handleConnectionClosed peer).active
  unfold HyparviewCall.handleConnectionClosed
  dsimp only
  split
  next hmem =>
    rw [(HyparviewCall.served_removeActive h hclear hmem .connectionClosed false).2]
    exact h.active_nodup.not_mem_erase
  · split <;> assumption

lemma TopicCall.inStep_handleInput {idOf : Bytes → MessageID} (h : InStep A c) (now : Time)
    (hquit : input ≠ .command .quit) : InStep A (c.handleInput idOf now input) := by
  cases input with
  | command command =>
    exact inStep_handleCommand h now fun e => hquit (congrArg TopicInput.command e)
  | recvMessage sender message =>
    have hcount : InStep A { c with messagesReceived := c.messagesReceived + 1 } := { h with }
    cases message with
    | swarm message => exact inStep_toSwarm hcount nofun
    | gossip message => exact inStep_toGossip_regroups hcount fun _ => nofun
    | unknown kind => exact hcount
  | timerExpired timer =>
    cases timer with
    | hyparview timer => exact inStep_toSwarm h nofun
    | plumtree timer => exact inStep_toGossip_regroups h fun _ => nofun
    | unknown kind => exact h
  | peerDisconnected peer =>
    -- PlumTree hears of the peer a second time, when it is active no more
    have hs : InStep A (c.toSwarm idOf (.peerDisconnected peer)) := inStep_toSwarm h nofun
    have hd := (c.toSwarm idOf (.peerDisconnected peer)).gossip.handle_neighborDown idOf peer now
    refine inStep_toGossip hs (hd.1 hs.disjoint) fun p hp => hd.2 p ?_ (hs.knows p hp)
    rintro rfl
    rw [swarm_toSwarm] at hp
    exact h.wellFormed.not_mem_active_peerDisconnected p hp
  | updatePeerData data => exact inStep_toSwarm h nofun
  | unknown kind => exact h

/-! ## Whole runs -/

namespace TopicState

def run (messageIDFromContent : Bytes → MessageID) (s : TopicState) (evs : List TopicInEvent) :
    TopicState × List TopicOutEvent :=
  evs.foldl (fun q ev =>
    ((q.1.handle messageIDFromContent ev).1, q.2 ++ (q.1.handle messageIDFromContent ev).2)) (s, [])

lemma inStep_handle (idOf : Bytes → MessageID) (h : InStep A (TopicCall.mk s out))
    (hquit : ev.input ≠ .command .quit) :
    InStep A (TopicCall.mk (s.handle idOf ev).1 (out ++ (s.handle idOf ev).2)) := by
  have hstart : InStep {p | p ∈ s.swarm.active} (TopicCall.mk s []) :=
    ⟨h.wellFormed, .nil, h.disjoint, h.knows⟩
  have hcall : InStep {p | p ∈ s.swarm.active}
      ((TopicCall.mk s []).handleInput idOf ev.now ev.input) :=
    TopicCall.inStep_handleInput hstart ev.now hquit
  refine ⟨hcall.wellFormed, ?_, hcall.disjoint, hcall.knows⟩
  rw [topicNeighborEvents_append]
  exact h.follows.trans hcall.follows

lemma inStep_run (idOf : Bytes → MessageID)
    (evs : List TopicInEvent) (hquit : ∀ ev ∈ evs, ev.input ≠ .command .quit)
    (q : TopicState × List TopicOutEvent) (h : InStep A (TopicCall.mk q.1 q.2)) :
    let q' := evs.foldl (fun q ev => ((q.1.handle idOf ev).1, q.2 ++ (q.1.handle idOf ev).2)) q
    InStep A (TopicCall.mk q'.1 q'.2) := by
  induction evs generalizing q with
  | nil => exact h
  | cons ev evs ih =>
    exact ih (fun ev' hev' => hquit ev' (mem_cons_of_mem ev hev')) _
      (inStep_handle idOf h (hquit ev mem_cons_self))

/-- What a listener to the neighbor events, and the broadcast layer, have of the active view. -/
structure LayersInStep (s : TopicState) (out : List TopicOutEvent) : Prop where
  alternates : ∀ p, Toggle.Alternates (Toggle.trace p (topicNeighborEvents out))
  active_iff : ∀ p, p ∈ s.swarm.active ↔
    (Toggle.trace p (topicNeighborEvents out)).getLast? = some true
  disjoint : ∀ p ∈ s.gossip.eager.keys, p ∉ s.gossip.lazy.keys
  active_one : ∀ p ∈ s.swarm.active, Xor (p ∈ s.gossip.eager.keys) (p ∈ s.gossip.lazy.keys)

/-- **The layers of a topic stay in step** in every run without a quit. -/
theorem run_layersInStep (messageIDFromContent : Bytes → MessageID) (me : PeerID)
    (data : Option PeerData) (config : TopicConfig) (rand : Rand) (evs : List TopicInEvent)
    (hquit : ∀ ev ∈ evs, ev.input ≠ .command .quit) :
    LayersInStep ((newTopicState me data config rand).run messageIDFromContent evs).1
      ((newTopicState me data config rand).run messageIDFromContent evs).2 := by
  have hempty : {p | p ∈ (newTopicState me data config rand).swarm.active} = ∅ := by
    simp [newTopicState, newHyparviewState]
  have hnew : InStep ∅ (TopicCall.mk (newTopicState me data config rand) []) := by
    refine ⟨HyparviewState.wellFormed_newHyparviewState _ _ _ _, ?_, ?_, ?_⟩
    · rw [hempty]
      exact .nil
    · exact fun p hp => absurd hp not_mem_keys_empty
    · exact fun p hp => absurd hp not_mem_nil
  have h := inStep_run messageIDFromContent evs hquit (newTopicState me data config rand, []) hnew
  refine ⟨fun p => (h.follows.alternates_and_parity p).1, fun p => h.follows.mem_iff_getLast? p,
    h.disjoint, ?_⟩
  intro p hp
  rcases h.knows p hp with he | hl
  · exact .inl ⟨he, h.disjoint p he⟩
  · exact .inr ⟨hl, fun he => h.disjoint p he hl⟩

/-- With room for one active peer, the second to join takes the place of the first; its prune makes it
lazy, and the first peer's closed connection changes nothing any more. -/
theorem run_layersInStep_evicted :
    let me : PeerID := .replicate 32 0
    let a : PeerID := .replicate 32 1
    let b : PeerID := .replicate 32 2
    let s := newTopicState me none
      ⟨⟨1, 1, 6, 3, 6, 3, 4, 60, 5⟩, defaultPlumtreeConfig⟩ ⟨fun _ => 0, 0⟩
    let evs : List TopicInEvent := [⟨.recvMessage a (.swarm (.join none)), 1⟩,
      ⟨.recvMessage b (.swarm (.join none)), 2⟩, ⟨.recvMessage b (.gossip .prune), 3⟩,
      ⟨.peerDisconnected a, 4⟩]
    let q := s.run (fun _ => me) evs
    (∀ ev ∈ evs, ev.input ≠ .command .quit) ∧
      (topicNeighborEvents q.2 = [.up a, .down a, .up b] ∧ q.1.swarm.active = [b] ∧
        q.1.gossip.eager.keys = [] ∧ q.1.gossip.lazy.keys = [b]) ∧
      LayersInStep q.1 q.2 :=
  ⟨by decide, by decide, run_layersInStep _ _ _ _ _ _ (by decide)⟩

end TopicState

end Iroh.GossipProto
