import Iroh.GossipProto.Missing

/-!
# Graft timers

Reference: `internal/gossipproto/plumtree.go`.

A message announced and not received is asked for when its `SendGraft` timer fires.  Between `missing`,
`received`, `graftTimerScheduled` and the timers the caller holds nothing is checked at run time; what
keeps them together is that every handler `Pursues`: a new missing message has not been received and
comes with a timer, or was already scheduled for one, and a message is recorded as received only as it
leaves `missing`.
-/

namespace Iroh.GossipProto

open List GoMap

def Grafts (out : List PlumtreeOutEvent) (id : MessageID) : Prop :=
  ∃ after, .scheduleTimer after (.sendGraft id) ∈ out

/-- A call schedules a timer for each message that it finds missing. -/
structure Pursues (known : List MessageID) (c c' : PlumtreeCall) : Prop where
  timers : ∀ id, Grafts c.out id → Grafts c'.out id
  scheduled : ∀ id ∈ c'.graftTimerScheduled.keys, id ∈ c.graftTimerScheduled.keys ∨ Grafts c'.out id
  missing : ∀ id ∈ c'.missing.keys,
    id ∈ c.missing.keys ∨ id ∈ c.graftTimerScheduled.keys ∨ Grafts c'.out id
  received : ∀ id ∈ c'.missing.keys, id ∈ c'.received.keys →
    id ∈ c.missing.keys ∧ id ∈ c.received.keys ∨ id ∈ known

section Pursues

variable {c c' c'' : PlumtreeCall} {known : List MessageID}

lemma SameChase.pursues (h : SameChase c c') : Pursues [] c c' where
  timers _ := Exists.imp fun _ => (h.mem_out_iff _ rfl).mpr
  scheduled _ hid := .inl (h.scheduled_eq ▸ hid)
  missing _ hid := .inl (h.missing_eq ▸ hid)
  received _ hid hreceived := .inl ⟨h.missing_eq ▸ hid, h.received_eq ▸ hreceived⟩

lemma SameMissing.pursues (h : SameMissing c c') : Pursues [] c c' := h.chase.pursues

lemma Pursues.refl (c : PlumtreeCall) : Pursues [] c c := SameChase.pursues rfl

lemma Pursues.trans (h : Pursues [] c c') (h' : Pursues known c' c'') : Pursues known c c'' := by
  have hscheduled : ∀ id ∈ c'.graftTimerScheduled.keys,
      id ∈ c.graftTimerScheduled.keys ∨ Grafts c''.out id :=
    fun id hid => (h.scheduled id hid).imp_right (h'.timers id)
  refine ⟨fun id hid => h'.timers id (h.timers id hid), ?_, ?_, ?_⟩
  · intro id hid
    exact (h'.scheduled id hid).elim (hscheduled id) .inr
  · intro id hid
    rcases h'.missing id hid with hid | hid | hid
    · exact (h.missing id hid).imp_right (Or.imp_right (h'.timers id))
    · exact .inr (hscheduled id hid)
    · exact .inr (.inr hid)
  · intro id hid hreceived
    rcases h'.received id hid hreceived with ⟨hid, hreceived⟩ | hknown
    · exact (h.received id hid hreceived).imp_right nofun
    · exact .inr hknown

end Pursues

namespace PlumtreeCall

variable {c : PlumtreeCall}

variable (c : PlumtreeCall)

lemma pursues_emit (ev : PlumtreeOutEvent) : Pursues [] c (c.emit ev) :=
  { Pursues.refl c with timers := fun _ hid => hid.imp fun _ => mem_append_left _
                        scheduled := fun _ => .inl, missing := fun _ => .inl }

lemma pursues_onEvictCacheTimer (now : Time) : Pursues [] c (c.onEvictCacheTimer now) := by
  have hevicted : ∀ id, id ∈ (c.onEvictCacheTimer now).received.keys → id ∈ c.received.keys := by
    intro id hid
    obtain ⟨expire, hget, -⟩ := mem_keys_rangeDelete.mp hid
    exact mem_keys_iff.mpr ⟨expire, hget⟩
  refine Pursues.trans ?_ (pursues_emit _ (.scheduleTimer c.config.cacheEvictInterval .evictCache))
  exact { Pursues.refl c with
    received := fun id hid hreceived => .inl ⟨hid, hevicted id hreceived⟩ }

lemma pursues_start (now : Time) : Pursues [] c (c.start now) := by
  unfold start
  split
  · exact .refl c
  · have hinit : Pursues [] c { c with init := true } := { Pursues.refl c with }
    exact hinit.trans (pursues_onEvictCacheTimer _ now)

lemma pursues_onIHaveOne (sender : PeerID) (ihave : IHave) :
    Pursues [] c (c.onIHaveOne sender ihave) := by
  unfold onIHaveOne
  dsimp only
  split
  · exact .refl c
  next hnew =>
    rw [GoMap.contains_iff] at hnew
    have hreceived : ∀ targets, ∀ id ∈ (c.missing.set ihave.id targets).keys, id ∈ c.received.keys →
        id ∈ c.missing.keys ∧ id ∈ c.received.keys ∨ id ∈ [] := by
      intro targets id hid hin
      rcases mem_keys_set.mp hid with rfl | hid
      · exact absurd hin hnew
      · exact .inl ⟨hid, hin⟩
    split
    · exact .refl c
    · split
      next hscheduled =>
        -- the timer that is recorded will do for the new target too
        refine ⟨fun _ h => h, fun _ => .inl, fun id hid => ?_, hreceived _⟩
        rcases mem_keys_set.mp hid with rfl | hid
        · exact .inr (.inl (contains_iff.mp hscheduled))
        · exact .inl hid
      · have htimer : Grafts (c.out ++ [.scheduleTimer c.config.graftTimeout1 (.sendGraft ihave.id)])
            ihave.id := ⟨_, mem_append_right _ (mem_singleton.mpr rfl)⟩
        refine ⟨(c.pursues_emit _).timers, fun id hid => ?_, fun id hid => ?_, hreceived _⟩
        · rcases mem_keys_set.mp hid with rfl | hid
          · exact .inr htimer
          · exact .inl hid
        · rcases mem_keys_set.mp hid with rfl | hid
          · exact .inr (.inr htimer)
          · exact .inl hid

lemma pursues_onIHave (sender : PeerID) (ihaves : List IHave) :
    Pursues [] c (c.onIHave sender ihaves) := by
  apply foldlRecOn (motive := Pursues [] c) ihaves _ (.refl c)
  intro c' h ihave _
  exact h.trans (c'.pursues_onIHaveOne sender ihave)

lemma pursues_onSwarmGossip (sender : PeerID) (message : Gossip) (round : UInt16) (now : Time) :
    Pursues [] c (c.onSwarmGossip sender message round now) := by
  refine Pursues.trans ?_ (c.sameChase_onSwarmGossip sender message round now).pursues
  refine { Pursues.refl c with scheduled := ?_, missing := ?_, received := ?_ }
  · exact fun id hid => .inl (mem_keys_delete.mp hid).2
  · exact fun id hid => .inl (mem_keys_delete.mp hid).2
  · intro id hid hin
    obtain ⟨hne, hid⟩ := mem_keys_delete.mp hid
    exact .inl ⟨hid, (mem_keys_set.mp hin).resolve_left hne⟩

lemma pursues_onGossip (idOf : Bytes → MessageID) (c : PlumtreeCall)
    (sender : PeerID) (message : Gossip) (now : Time) :
    Pursues [] c (c.onGossip idOf sender message now) := by
  unfold onGossip
  split
  · exact .refl c
  · split
    · exact (c.sameMissing_addLazy sender).pursues.trans (pursues_emit _ _)
    · refine Pursues.trans ?_ (pursues_emit _ _)
      split
      · exact c.pursues_onSwarmGossip sender message _ now
      · exact .refl c

lemma pursues_onNeighborDown (peer : PeerID) : Pursues [] c (c.onNeighborDown peer) := by
  have hkept : ∀ id, id ∈ (c.onNeighborDown peer).missing.keys → id ∈ c.missing.keys := by
    intro id hid
    obtain ⟨targets, hget⟩ := mem_keys_iff.mp hid
    obtain ⟨old, hold, -⟩ := of_get?_putAll (m := c.missing) hget
    exact mem_keys_iff.mpr ⟨old, hold⟩
  exact ⟨fun _ h => h, fun _ => .inl, fun id hid => .inl (hkept id hid),
    fun id hid hreceived => .inl ⟨hkept id hid, hreceived⟩⟩

lemma sameMissing_broadcast (idOf : Bytes → MessageID) (c : PlumtreeCall) (content : Bytes)
    (hscope : scope ≠ .neighbors) (now : Time) :
    SameMissing (c.remember (idOf content) ⟨idOf content, content, .swarm 0⟩ now)
      (c.broadcast idOf content scope now) := by
  unfold broadcast
  rw [if_neg hscope]
  exact (sameMissing_lazyPush _ _ _).trans (sameMissing_eagerPush _ _ _)

lemma pursues_handleInput (idOf : Bytes → MessageID) (c : PlumtreeCall) (now : Time)
    (hbroadcast : ∀ content scope, input = .broadcast content scope → scope = .neighbors)
    (htimer : ∀ id, input ≠ .timerExpired (.sendGraft id)) :
    Pursues [] c (c.handleInput idOf now input) := by
  cases input with
  | recvMessage sender message =>
    refine (c.sameMissing_countMessage message).pursues.trans ?_
    cases message with
    | gossip message => exact pursues_onGossip idOf _ sender message now
    | prune => exact (sameMissing_addLazy _ sender).pursues
    | graft message => exact (sameMissing_onGraft _ sender message).pursues
    | iHave ihaves => exact pursues_onIHave _ sender ihaves
    | unknown kind => exact .refl _
  | broadcast content scope =>
    have hscope := hbroadcast content scope rfl
    simp only [hscope]
    exact (c.sameMissing_eagerPush _ _).pursues
  | timerExpired timer =>
    cases timer with
    | sendGraft id => exact absurd rfl (htimer id)
    | dispatchLazyPush => exact c.sameMissing_onDispatchTimer.pursues
    | evictCache => exact c.pursues_onEvictCacheTimer now
    | unknown kind => exact .refl c
  | neighborUp peer => exact (c.sameMissing_addEager peer).pursues
  | neighborDown peer => exact c.pursues_onNeighborDown peer
  | unknown kind => exact .refl c

end PlumtreeCall

/-! ## Outstanding timers -/

def PlumtreeOutEvent.timer? : PlumtreeOutEvent → Option PlumtreeTimer
  | .scheduleTimer _ timer => some timer
  | _ => none

def PlumtreeInEvent.fired (ev : PlumtreeInEvent) : Option PlumtreeTimer :=
  match ev.input with
  | .timerExpired timer => some timer
  | _ => none

def plumtreeMachine (messageIDFromContent : Bytes → MessageID) :
    TimedMachine PlumtreeState PlumtreeInEvent PlumtreeTimer where
  step s ev := (s.handle messageIDFromContent ev).1
  scheduled s ev := (s.handle messageIDFromContent ev).2.filterMap PlumtreeOutEvent.timer?
  fired := PlumtreeInEvent.fired

/-- The timers that count as scheduled are outstanding. -/
structure GraftsHeld (q : PlumtreeState × List PlumtreeTimer) : Prop where
  tallied : Tallied [] q.1
  scheduled : ∀ id ∈ q.1.graftTimerScheduled.keys, .sendGraft id ∈ q.2

/-- A missing message is not received, and a timer is out for it. -/
structure Chased (q : PlumtreeState × List PlumtreeTimer) : Prop where
  fresh : ∀ id ∈ q.1.missing.keys, id ∉ q.1.received.keys
  timed : ∀ id ∈ q.1.missing.keys, .sendGraft id ∈ q.2

section Steps

variable {idOf : Bytes → MessageID} {q : PlumtreeState × List PlumtreeTimer}
  {ev : PlumtreeInEvent}

lemma mem_next_of_grafts {id : MessageID} (h : Grafts (q.1.handle idOf ev).2 id) :
    .sendGraft id ∈ ((plumtreeMachine idOf).next q ev).2 := by
  obtain ⟨after, h⟩ := h
  exact mem_append_right _ (mem_filterMap.mpr ⟨_, h, rfl⟩)

lemma sendGraft_mem_next {id : MessageID} (h : .sendGraft id ∈ q.2)
    (hne : ev.input ≠ .timerExpired (.sendGraft id)) :
    .sendGraft id ∈ ((plumtreeMachine idOf).next q ev).2 := by
  refine TimedMachine.mem_next h ?_
  show ev.fired ≠ _
  unfold PlumtreeInEvent.fired
  split
  next timer heq => exact fun hfired => hne (heq.trans (congrArg _ (Option.some.inj hfired)))
  · exact nofun

/-- The part of `Handle` before its switch. -/
def opened (s : PlumtreeState) (now : Time) : PlumtreeCall := (PlumtreeCall.mk s []).start now

lemma opened_missing (s : PlumtreeState) (now : Time) : (opened s now).missing = s.missing ∧
      (opened s now).graftTimerScheduled = s.graftTimerScheduled := by
  unfold opened PlumtreeCall.start
  split <;> exact ⟨rfl, rfl⟩

lemma pursues_opened (s : PlumtreeState) (now : Time) :
    Pursues [] (PlumtreeCall.mk s []) (opened s now) := PlumtreeCall.pursues_start _ now

lemma chased_of_pursues (ev : PlumtreeInEvent) (hheld : GraftsHeld q)
    (htimer : ∀ id, ev.input ≠ .timerExpired (.sendGraft id))
    (hp : Pursues known (opened q.1 ev.now) ((opened q.1 ev.now).handleInput idOf ev.now ev.input)) :
    GraftsHeld ((plumtreeMachine idOf).next q ev) ∧
      (Chased q → (∀ id ∈ known, id ∉ (q.1.handle idOf ev).1.missing.keys) →
        Chased ((plumtreeMachine idOf).next q ev)) := by
  have hp := (pursues_opened q.1 ev.now).trans hp
  have hold : ∀ id ∈ q.1.graftTimerScheduled.keys,
      .sendGraft id ∈ ((plumtreeMachine idOf).next q ev).2 :=
    fun id hid => sendGraft_mem_next (hheld.scheduled id hid) (htimer id)
  refine ⟨⟨PlumtreeState.tallied_handle idOf hheld.tallied ev, fun id hid => ?_⟩,
    fun hchased hknown => ⟨fun id hid hin => ?_, fun id hid => ?_⟩⟩
  · exact (hp.scheduled id hid).elim (hold id) mem_next_of_grafts
  · rcases hp.received id hid hin with ⟨hid, hin⟩ | hin
    · exact hchased.fresh id hid hin
    · exact hknown id hin hid
  · rcases hp.missing id hid with hid | hid | hid
    · exact sendGraft_mem_next (hchased.timed id hid) (htimer id)
    · exact hold id hid
    · exact mem_next_of_grafts hid

lemma onSendGraftTimer_spec (c : PlumtreeCall) (id : MessageID) :
    (c.onSendGraftTimer id).graftTimerScheduled = c.graftTimerScheduled.delete id ∧
      (c.onSendGraftTimer id).received = c.received ∧
      (∀ id' ∈ (c.onSendGraftTimer id).missing.keys, id' ∈ c.missing.keys) ∧
      (id ∈ c.received.keys ∨ c.missing.listAt id = [] ∨ Grafts (c.onSendGraftTimer id).out id) := by
  unfold PlumtreeCall.onSendGraftTimer
  dsimp only
  split
  next hreceived => exact ⟨rfl, rfl, fun _ h => h, .inl (contains_iff.mp hreceived)⟩
  · split
    next hnone => exact ⟨rfl, rfl, fun _ h => h, .inr (.inl hnone)⟩
    next target rest hlist =>
      refine ⟨rfl, rfl, fun id' hid' => ?_, .inr (.inr ⟨c.config.graftTimeout2, ?_⟩)⟩
      · have hne : c.missing.listAt id ≠ [] := ne_of_eq_of_ne hlist (cons_ne_nil target rest)
        exact mem_keys_of_mem_put (mem_keys_of_listAt_ne_nil hne) hid'
      · exact mem_append_right _ (mem_singleton.mpr rfl)

lemma chased_onSendGraftTimer (hheld : GraftsHeld q) {id : MessageID}
    (hev : ev.input = .timerExpired (.sendGraft id)) : GraftsHeld ((plumtreeMachine idOf).next q ev) ∧
      (Chased q → Chased ((plumtreeMachine idOf).next q ev)) := by
  obtain ⟨input, now⟩ := ev
  subst hev
  have hother : ∀ id', id' ≠ id → .sendGraft id' ∈ q.2 →
      .sendGraft id' ∈ ((plumtreeMachine idOf).next q ⟨.timerExpired (.sendGraft id), now⟩).2 := by
    intro id' hne hid'
    refine sendGraft_mem_next hid' ?_
    rintro ⟨⟩
    exact hne rfl
  obtain ⟨hscheduled, hreceived, hmissing, hend⟩ := onSendGraftTimer_spec (opened q.1 now) id
  have hopened : ∀ id ∈ (opened q.1 now).missing.keys, id ∈ (opened q.1 now).received.keys →
      id ∈ q.1.missing.keys ∧ id ∈ q.1.received.keys :=
    fun id hid hin => ((pursues_opened q.1 now).received id hid hin).resolve_right not_mem_nil
  refine ⟨⟨PlumtreeState.tallied_handle idOf hheld.tallied _, fun id' hid' => ?_⟩,
    fun hchased => ⟨fun id' hid' hin => ?_, fun id' hid' => ?_⟩⟩
  · obtain ⟨hne, hid'⟩ := mem_keys_delete.mp (hscheduled ▸ hid')
    exact hother id' hne (hheld.scheduled id' ((opened_missing q.1 now).2 ▸ hid'))
  · obtain ⟨hid', hin⟩ := hopened id' (hmissing id' hid') (hreceived ▸ hin)
    exact hchased.fresh id' hid' hin
  · have hold : id' ∈ q.1.missing.keys := (opened_missing q.1 now).1 ▸ hmissing id' hid'
    by_cases hne : id' = id
    · subst hne
      rcases hend with hend | hend | hend
      · exact absurd (hopened id' (hmissing id' hid') hend).2 (hchased.fresh id' hold)
      · -- no message is missing without a target
        rw [(opened_missing _ _).1] at hend
        obtain ⟨targets, hget⟩ := mem_keys_iff.mp hold
        exact absurd ((listAt_of_get? hget).symm.trans hend)
          (hheld.tallied.nonempty id' targets hget)
      · exact mem_next_of_grafts hend
    · exact hother id' hne (hchased.timed id' hold)

def BroadcastsFresh (messageIDFromContent : Bytes → MessageID) (s : PlumtreeState)
    (ev : PlumtreeInEvent) : Prop :=
  ∀ content scope, ev.input = .broadcast content scope → scope ≠ .neighbors →
    messageIDFromContent content ∉ s.missing.keys

lemma chased_broadcast (idOf : Bytes → MessageID) (hheld : GraftsHeld q)
    (hev : ev.input = .broadcast content scope) (hscope : scope ≠ .neighbors) :
    GraftsHeld ((plumtreeMachine idOf).next q ev) ∧
      (Chased q → (Chased ((plumtreeMachine idOf).next q ev) ↔ idOf content ∉ q.1.missing.keys)) := by
  obtain ⟨input, now⟩ := ev
  subst hev
  have hspec := ((opened q.1 now).sameMissing_broadcast idOf content hscope now).chase
  have hmissing := hspec.missing_eq.trans (opened_missing q.1 now).1
  have hpursues : Pursues [idOf content] (opened q.1 now)
      ((opened q.1 now).broadcast idOf content scope now) := by
    refine { hspec.pursues with received := fun id hid hin => ?_ }
    rcases mem_keys_set.mp (hspec.received_eq ▸ hin) with hid' | hin
    · exact .inr (mem_singleton.mpr hid')
    · exact .inl ⟨hspec.missing_eq ▸ hid, hin⟩
  obtain ⟨hheld', hchase⟩ := chased_of_pursues ⟨.broadcast content scope, now⟩ hheld (fun _ => nofun)
    hpursues
  refine ⟨hheld', fun hchased => ⟨fun hnext hin => ?_, fun hnot => hchase hchased ?_⟩⟩
  · -- the message would be missing and received at once
    refine hnext.fresh (idOf content) (hmissing ▸ hin) ?_
    exact hspec.received_eq ▸ mem_keys_set.mpr (.inl rfl)
  · rintro id hid
    rw [mem_singleton.mp hid]
    exact hmissing ▸ hnot

theorem chased_next (hheld : GraftsHeld q) (ev : PlumtreeInEvent) :
    GraftsHeld ((plumtreeMachine idOf).next q ev) ∧
      (Chased q → (Chased ((plumtreeMachine idOf).next q ev) ↔ BroadcastsFresh idOf q.1 ev)) := by
  by_cases hbroadcast : ∃ content scope, ev.input = .broadcast content scope ∧ scope ≠ .neighbors
  · obtain ⟨content, scope, hev, hscope⟩ := hbroadcast
    obtain ⟨hheld', hiff⟩ := chased_broadcast idOf hheld hev hscope
    refine ⟨hheld', fun hchased => (hiff hchased).trans ⟨?_, ?_⟩⟩
    · intro hnot content' scope' hev' _
      cases hev.symm.trans hev'
      exact hnot
    · exact fun hfresh => hfresh content scope hev hscope
  · have hfresh : BroadcastsFresh idOf q.1 ev :=
      fun content scope hev hscope => absurd ⟨content, scope, hev, hscope⟩ hbroadcast
    have hcases : GraftsHeld ((plumtreeMachine idOf).next q ev) ∧
        (Chased q → Chased ((plumtreeMachine idOf).next q ev)) := by
      by_cases htimer : ∃ id, ev.input = .timerExpired (.sendGraft id)
      · obtain ⟨id, hev⟩ := htimer
        exact chased_onSendGraftTimer hheld hev
      · rw [not_exists] at htimer
        have hpursues := (opened q.1 ev.now).pursues_handleInput idOf ev.now
          (fun content scope hev => not_not.mp fun hscope => hbroadcast ⟨content, scope, hev, hscope⟩)
          htimer
        exact (chased_of_pursues ev hheld htimer hpursues).imp_right fun h hchased => h hchased nofun
    exact ⟨hcases.1, fun hchased => iff_of_true (hcases.2 hchased) hfresh⟩

end Steps

/-! ## Whole runs -/

lemma graftsHeld_newPlumtreeState (me : PeerID) (config : PlumtreeConfig) :
    GraftsHeld (newPlumtreeState me config, []) :=
  ⟨PlumtreeState.tallied_newPlumtreeState me config, fun _ hid => absurd hid not_mem_keys_empty⟩

/-- **Announced messages are chased throughout a run exactly when no message is broadcast to the swarm
while it is missing.**  The run is one in which a timer fires at most once, after it was scheduled. -/
theorem run_chased_iff (messageIDFromContent : Bytes → MessageID) (me : PeerID)
    (config : PlumtreeConfig) (evs : List PlumtreeInEvent)
    (hlegal : EachStep (plumtreeMachine messageIDFromContent).next
      (plumtreeMachine messageIDFromContent).Legal (newPlumtreeState me config, []) evs) :
    EachState (plumtreeMachine messageIDFromContent).next Chased
        (newPlumtreeState me config, []) evs ↔
      EachStep (plumtreeMachine messageIDFromContent).next
        (fun q ev => BroadcastsFresh messageIDFromContent q.1 ev)
        (newPlumtreeState me config, []) evs := by
  have hnew : Chased (newPlumtreeState me config, []) :=
    ⟨fun _ hid => absurd hid not_mem_keys_empty, fun _ hid => absurd hid not_mem_keys_empty⟩
  refine eachState_iff_eachStep _ GraftsHeld ?_ ?_ (graftsHeld_newPlumtreeState me config) hnew evs
    hlegal
  · exact fun q ev _ hheld => (chased_next hheld ev).1
  · exact fun q ev _ hheld hchased => (chased_next hheld ev).2 hchased

/-- A peer announces a message, and the graft timer asks it. -/
theorem run_chased_iff_graft :
    let me : PeerID := .replicate 32 0
    let p : PeerID := .replicate 32 1
    let id : MessageID := .replicate 32 2
    let hash : Bytes → MessageID := fun _ => id
    let m := plumtreeMachine hash
    let q₀ := (newPlumtreeState me defaultPlumtreeConfig, ([] : List PlumtreeTimer))
    let evs : List PlumtreeInEvent := [⟨.recvMessage p (.iHave [⟨id, 1⟩]), 1⟩,
      ⟨.timerExpired (.sendGraft id), 2⟩]
    EachStep m.next m.Legal q₀ evs ∧ ((evs.foldl m.next q₀).1.eager.keys = [p] ∧
        (evs.foldl m.next q₀).2 = [.evictCache, .sendGraft id]) ∧
      (EachState m.next Chased q₀ evs ↔
        EachStep m.next (fun q ev => BroadcastsFresh hash q.1 ev) q₀ evs) := by
  have hlegal : EachStep (plumtreeMachine fun _ => .replicate 32 2).next
      (plumtreeMachine fun _ => .replicate 32 2).Legal
      (newPlumtreeState (.replicate 32 0) defaultPlumtreeConfig, [])
      [⟨.recvMessage (.replicate 32 1) (.iHave [⟨.replicate 32 2, 1⟩]), 1⟩,
        ⟨.timerExpired (.sendGraft (.replicate 32 2)), 2⟩] := by
    refine eachStep_cons.mpr ⟨fun t => nofun, eachStep_cons.mpr ⟨?_, eachStep_nil _ _⟩⟩
    rintro t ⟨⟩
    decide
  exact ⟨hlegal, by decide, run_chased_iff _ _ _ _ hlegal⟩

/-- A peer announces a message that the node then broadcasts itself: the message is received and
missing.  Its graft timer fires without effect, and leaves it missing without a timer. -/
theorem broadcast_while_missing :
    let me : PeerID := .replicate 32 0
    let p : PeerID := .replicate 32 1
    let id : MessageID := .replicate 32 2
    let hash : Bytes → MessageID := fun _ => id
    let m := plumtreeMachine hash
    let q₀ := (newPlumtreeState me defaultPlumtreeConfig, ([] : List PlumtreeTimer))
    let q₁ := m.next q₀ ⟨.recvMessage p (.iHave [⟨id, 1⟩]), 1⟩
    let q₂ := m.next q₁ ⟨.broadcast [7] .swarm, 2⟩
    let q₃ := m.next q₂ ⟨.timerExpired (.sendGraft id), 3⟩
    (.sendGraft id ∈ q₂.2) ∧ (q₂.1.missing.keys = [id] ∧ q₂.1.received.keys = [id]) ∧
      q₃.1.missing.keys = [id] ∧ .sendGraft id ∉ q₃.2 :=
  ⟨by decide, by decide, by decide, by decide⟩

end Iroh.GossipProto
