import Iroh.GossipProto.GraftTimers

/-!
# Deliveries and their retention

Reference: `internal/gossipproto/plumtree.go`.

A message of the swarm that is delivered or broadcast is recorded in `received` until `MessageIDRetention`
after the time of the input, and nothing with its id is delivered while the record stands.  Only
`onEvictCacheTimer` removes records; a broadcast of the same content writes a new one, with the time of that
broadcast.
-/

namespace Iroh.GossipProto

open List GoMap

def PlumtreeOutEvent.delivery? : PlumtreeOutEvent → Option PlumtreeEvent
  | .emitEvent e => some e
  | _ => none

def deliveries (out : List PlumtreeOutEvent) : List PlumtreeEvent :=
  out.filterMap PlumtreeOutEvent.delivery?

@[simp] lemma deliveries_append (out out' : List PlumtreeOutEvent) :
    deliveries (out ++ out') = deliveries out ++ deliveries out' :=
  filterMap_append

lemma deliveries_filter_isSignal (out : List PlumtreeOutEvent) :
    deliveries (out.filter PlumtreeOutEvent.isSignal) = deliveries out := by
  rw [deliveries, filterMap_filter]
  refine congrArg (filterMap · out) (funext fun ev => ?_)
  cases ev with
  | scheduleTimer after timer => exact ite_self none
  | _ => rfl

def PlumtreeCall.recorded (c : PlumtreeCall) :
    PlumtreeConfig × Bool × GoMap MessageID Time × List PlumtreeEvent :=
  (c.config, c.init, c.received, deliveries c.out)

abbrev SameReceived (c c' : PlumtreeCall) : Prop := c.recorded = c'.recorded

lemma SameChase.sameReceived (h : SameChase c c') : SameReceived c c' := by
  have hsignals := congrArg (deliveries ·.2.2.2.2.2) h
  simp only [PlumtreeCall.chase, deliveries_filter_isSignal] at hsignals
  rw [SameReceived, PlumtreeCall.recorded, hsignals, ← h.received_eq]
  exact congrArg (fun q => (q.1, q.2.1, c'.received, deliveries c'.out)) h

lemma SameMissing.sameReceived (h : SameMissing c c') : SameReceived c c' := h.chase.sameReceived

/-! ## The records by themselves -/

/-- What an input does to the records, and what it delivers. -/
def recordsAfter (messageIDFromContent : Bytes → MessageID) (retention : Duration)
    (received : GoMap MessageID Time) (now : Time) :
    PlumtreeInput → GoMap MessageID Time × List PlumtreeEvent
  | .recvMessage sender (.gossip message) =>
    if message.id ≠ messageIDFromContent message.content then (received, [])
    else if message.id ∈ received.keys then (received, [])
    else
      (match message.scope with
        | .swarm _ => received.set message.id (now + retention)
        | _ => received, [⟨message.content, sender, message.scope⟩])
  | .broadcast content scope =>
    (if scope = .neighbors then received
      else received.set (messageIDFromContent content) (now + retention), [])
  | .timerExpired .evictCache => (received.rangeDelete fun _ expire => expire ≤ now, [])
  | _ => (received, [])

section Records

variable {idOf : Bytes → MessageID} {retention : Duration} {received : GoMap MessageID Time}
  {now : Time} {input : PlumtreeInput}

lemma length_recordsAfter_le (idOf : Bytes → MessageID) (retention : Duration)
    (received : GoMap MessageID Time) (now : Time) (input : PlumtreeInput) :
    (recordsAfter idOf retention received now input).2.length ≤ 1 := by
  unfold recordsAfter
  split
  · split
    · exact Nat.zero_le 1
    · split <;> simp
  all_goals exact Nat.zero_le 1

lemma of_mem_recordsAfter (he : e ∈ (recordsAfter idOf retention received now input).2) :
    ∃ sender message, input = .recvMessage sender (.gossip message) ∧
      e = ⟨message.content, sender, message.scope⟩ ∧ message.id = idOf message.content ∧
      message.id ∉ received.keys ∧ ((∃ round, message.scope = .swarm round) →
        (recordsAfter idOf retention received now input).1.get? message.id =
          some (now + retention)) := by
  unfold recordsAfter at he
  split at he
  next sender message =>
    split at he
    · cases he
    next hid =>
      split at he
      · cases he
      next hnew =>
        refine ⟨sender, message, rfl, mem_singleton.mp he, not_not.mp hid, hnew, ?_⟩
        rintro ⟨round, hscope⟩
        simp [recordsAfter, if_neg hid, if_neg hnew, hscope]
  all_goals cases he

/-- The input neither evicts at `till` or later nor records the message anew for less. -/
def KeepsRecord (messageIDFromContent : Bytes → MessageID) (id : MessageID) (till : Time)
    (retention : Duration) (ev : PlumtreeInEvent) : Prop :=
  (ev.input = .timerExpired .evictCache → ev.now < till) ∧
    ∀ content scope, ev.input = .broadcast content scope → scope ≠ .neighbors →
      messageIDFromContent content = id → till ≤ ev.now + retention

lemma KeepsRecord.recordsAfter {id : MessageID} (hev : KeepsRecord idOf id till retention ⟨input, now⟩)
    (h : ∃ expire, received.get? id = some expire ∧ till ≤ expire) :
    ∃ expire, (recordsAfter idOf retention received now input).1.get? id = some expire ∧
      till ≤ expire := by
  obtain ⟨expire, hget, hle⟩ := h
  unfold GossipProto.recordsAfter
  split
  next sender message =>
    split
    · exact ⟨expire, hget, hle⟩
    · split
      · exact ⟨expire, hget, hle⟩
      next hnew =>
        -- a new message is another one
        have hne : id ≠ message.id := by
          rintro rfl
          exact hnew (mem_keys_iff.mpr ⟨expire, hget⟩)
        split
        · exact ⟨expire, by rw [get?_set, if_neg hne, hget], hle⟩
        · exact ⟨expire, hget, hle⟩
  next content scope =>
    split
    · exact ⟨expire, hget, hle⟩
    next hscope =>
      rw [get?_set]
      split
      next hid => exact ⟨_, rfl, hev.2 content scope rfl hscope hid.symm⟩
      · exact ⟨expire, hget, hle⟩
  · have hstands : ¬expire ≤ now := Int.not_le.mpr (Int.lt_of_lt_of_le (hev.1 rfl) hle)
    exact ⟨expire, by simp [hget, hstands], hle⟩
  · exact ⟨expire, hget, hle⟩

end Records

/-! ## Deliveries -/

namespace PlumtreeCall

lemma sameReceived_onIHave (c : PlumtreeCall) (sender : PeerID) (ihaves : List IHave) :
    SameReceived c (c.onIHave sender ihaves) := by
  have hone : ∀ (c : PlumtreeCall) ihave, SameReceived c (c.onIHaveOne sender ihave) := by
    intro c ihave
    unfold onIHaveOne
    dsimp only
    split
    · rfl
    · split
      · rfl
      · split
        · rfl
        · simp [SameReceived, recorded, emit, deliveries, PlumtreeOutEvent.delivery?]
  apply foldlRecOn (motive := SameReceived c) ihaves _ rfl
  intro c' h ihave _
  exact h.trans (hone c' ihave)

lemma sameReceived_onSendGraftTimer (c : PlumtreeCall) (id : MessageID) :
    SameReceived c (c.onSendGraftTimer id) := by
  unfold onSendGraftTimer
  dsimp only
  split
  · rfl
  · split
    · rfl
    · simp [SameReceived, recorded, emit, addEager, forgetMissing, deliveries,
        PlumtreeOutEvent.delivery?]

variable (idOf : Bytes → MessageID) (c : PlumtreeCall)

lemma recorded_onGossip (sender : PeerID) (message : Gossip) (now : Time) :
    let r := recordsAfter idOf c.config.messageIDRetention c.received now
      (.recvMessage sender (.gossip message))
    (c.onGossip idOf sender message now).recorded =
      (c.config, c.init, r.1, deliveries c.out ++ r.2) := by
  intro r
  simp only [onGossip, r, recordsAfter, GoMap.contains_iff]
  split
  · rw [append_nil]
    rfl
  · split
    · -- a message that is known makes its sender lazy
      rw [append_nil]
      exact (SameMissing.sameReceived (sameMissing_emit (c.addLazy sender) _ rfl)).symm
    · obtain ⟨id, content, scope⟩ := message
      have hemit : ∀ c' : PlumtreeCall, (c'.emit (.emitEvent ⟨content, sender, scope⟩)).recorded =
          (c'.config, c'.init, c'.received, deliveries c'.out ++ [⟨content, sender, scope⟩]) :=
        fun c' => congrArg (c'.config, c'.init, c'.received, ·) (deliveries_append _ _)
      cases scope with
      | swarm round =>
        have hsame := (c.sameChase_onSwarmGossip sender ⟨id, content, .swarm round⟩ round
          now).sameReceived
        exact (hemit _).trans (congrArg (fun q => (q.1, q.2.1, q.2.2.1, q.2.2.2 ++ _)) hsame.symm)
      | _ => exact hemit c

theorem recorded_handleInput (now : Time) (input : PlumtreeInput) :
    let r := recordsAfter idOf c.config.messageIDRetention c.received now input
    (c.handleInput idOf now input).recorded = (c.config, c.init, r.1, deliveries c.out ++ r.2) := by
  have hsame : ∀ c', SameReceived c c' →
      c'.recorded = (c.config, c.init, c.received, deliveries c.out ++ []) :=
    fun c' h => (append_nil _).symm ▸ h.symm
  cases input with
  | recvMessage sender message =>
    have hcount := (c.sameMissing_countMessage message).sameReceived
    cases message with
    | gossip message => exact recorded_onGossip idOf _ sender message now
    | prune => exact hsame _ (hcount.trans (sameMissing_addLazy _ sender).sameReceived)
    | graft message => exact hsame _ (hcount.trans (sameMissing_onGraft _ sender message).sameReceived)
    | iHave ihaves => exact hsame _ (hcount.trans (sameReceived_onIHave _ sender ihaves))
    | unknown kind => exact hsame _ hcount
  | broadcast content scope =>
    by_cases hscope : scope = .neighbors
    · simp only [handleInput, broadcast, recordsAfter, if_pos hscope]
      exact hsame _ (c.sameMissing_eagerPush _ _).sameReceived
    · simp only [recordsAfter, if_neg hscope, append_nil]
      exact (c.sameMissing_broadcast idOf content hscope now).sameReceived.symm
  | timerExpired timer =>
    cases timer with
    | sendGraft id => exact hsame _ (c.sameReceived_onSendGraftTimer id)
    | dispatchLazyPush => exact hsame _ c.sameMissing_onDispatchTimer.sameReceived
    | evictCache => exact congrArg (c.config, c.init, _, ·) (deliveries_append _ _)
    | unknown kind => exact hsame _ rfl
  | neighborUp peer => exact hsame _ (c.sameMissing_addEager peer).sameReceived
  | _ => exact hsame _ rfl

end PlumtreeCall

section Handle

variable {idOf : Bytes → MessageID} {s : PlumtreeState} {ev : PlumtreeInEvent}

lemma opened_config (s : PlumtreeState) (now : Time) :
    (opened s now).config = s.config ∧ (opened s now).init = true ∧
      deliveries (opened s now).out = [] := by
  unfold opened PlumtreeCall.start
  split
  next hinit => exact ⟨rfl, hinit, rfl⟩
  · exact ⟨rfl, rfl, rfl⟩

lemma opened_of_init (hinit : s.init = true) (now : Time) : opened s now = PlumtreeCall.mk s [] := by
  rw [opened, PlumtreeCall.start, if_pos hinit]

theorem records_handle (idOf : Bytes → MessageID) (s : PlumtreeState) (ev : PlumtreeInEvent) :
    let r := recordsAfter idOf s.config.messageIDRetention (opened s ev.now).received ev.now ev.input
    (s.handle idOf ev).1.config = s.config ∧ (s.handle idOf ev).1.init = true ∧
      (s.handle idOf ev).1.received = r.1 ∧ deliveries (s.handle idOf ev).2 = r.2 := by
  obtain ⟨hconfig, hinit, hnone⟩ := opened_config s ev.now
  have h := (opened s ev.now).recorded_handleInput idOf ev.now ev.input
  simp only [hconfig, hinit, hnone, PlumtreeCall.recorded, Prod.mk.injEq] at h
  exact h

lemma of_mem_deliveries (he : e ∈ deliveries (s.handle idOf ev).2) :
    ∃ sender message, ev.input = .recvMessage sender (.gossip message) ∧
      e = ⟨message.content, sender, message.scope⟩ ∧ message.id = idOf message.content ∧
      message.id ∉ (opened s ev.now).received.keys ∧
      ((∃ round, message.scope = .swarm round) → (s.handle idOf ev).1.received.get? message.id =
          some (ev.now + s.config.messageIDRetention)) := by
  obtain ⟨-, -, hreceived, hdeliveries⟩ := records_handle idOf s ev
  rw [hreceived]
  exact of_mem_recordsAfter (hdeliveries ▸ he)

/-- The step delivers a content as a message of the swarm, or broadcasts it to the swarm. -/
def Records (messageIDFromContent : Bytes → MessageID) (s : PlumtreeState) (ev : PlumtreeInEvent)
    (content : Bytes) : Prop :=
  (∃ sender round, ⟨content, sender, .swarm round⟩ ∈ deliveries (s.handle messageIDFromContent ev).2) ∨
    ∃ scope, ev.input = .broadcast content scope ∧ scope ≠ .neighbors

lemma received_of_records (h : Records idOf s ev content) :
    (s.handle idOf ev).1.received.get? (idOf content) =
      some (ev.now + s.config.messageIDRetention) := by
  rcases h with ⟨sender, round, he⟩ | ⟨scope, hev, hscope⟩
  · obtain ⟨sender', message, -, heq, hid, -, hreceived⟩ := of_mem_deliveries he
    obtain ⟨hcontent, -, hscope⟩ := PlumtreeEvent.mk.inj heq
    rw [hcontent, ← hid]
    exact hreceived ⟨round, hscope.symm⟩
  · have hreceived := (records_handle idOf s ev).2.2.1
    simp only [hev, recordsAfter, if_neg hscope] at hreceived
    rw [hreceived, get?_set, if_pos rfl]

/-- A message stays recorded, to the time `till` or later. -/
def Retained (id : MessageID) (till : Time) (s : PlumtreeState) : Prop :=
  s.init = true ∧ ∃ expire, s.received.get? id = some expire ∧ till ≤ expire

lemma Retained.handle {id : MessageID} (hs : Retained id till s)
    (hev : KeepsRecord idOf id till s.config.messageIDRetention ev) :
    Retained id till (s.handle idOf ev).1 := by
  obtain ⟨-, hinit, hreceived, -⟩ := records_handle idOf s ev
  refine ⟨hinit, ?_⟩
  rw [hreceived, opened_of_init hs.1]
  exact KeepsRecord.recordsAfter hev hs.2

lemma Retained.not_delivered (hs : Retained (idOf content) till s)
    (he : e ∈ deliveries (s.handle idOf ev).2) : e.content ≠ content := by
  rintro rfl
  obtain ⟨hinit, expire, hget, -⟩ := hs
  obtain ⟨sender, message, -, rfl, hid, hnew, -⟩ := of_mem_deliveries he
  rw [opened_of_init hinit, hid] at hnew
  exact hnew (mem_keys_iff.mpr ⟨expire, hget⟩)

end Handle

/-! ## Whole runs -/

section Runs

variable {idOf : Bytes → MessageID}

lemma config_run (idOf : Bytes → MessageID) (s : PlumtreeState)
    (evs : List PlumtreeInEvent) : (s.run idOf evs).config = s.config := by
  apply foldlRecOn (motive := fun s' : PlumtreeState => s'.config = s.config) evs _ rfl
  intro s' h ev _
  exact (records_handle idOf s' ev).1.trans h

lemma Retained.run {id : MessageID} (hs : Retained id till s)
    (hevs : ∀ ev ∈ evs, KeepsRecord idOf id till s.config.messageIDRetention ev) :
    Retained id till (s.run idOf evs) := by
  induction evs generalizing s with
  | nil => exact hs
  | cons ev evs ih =>
    refine ih (hs.handle (hevs ev mem_cons_self)) fun ev' hev' => ?_
    rw [(records_handle idOf s ev).1]
    exact hevs ev' (mem_cons_of_mem _ hev')

end Runs

/-- **A message of the swarm is delivered again only after an eviction past its retention**, if no broadcast
of the message in between carries an earlier time. -/
theorem run_redelivered (messageIDFromContent : Bytes → MessageID) (me : PeerID)
    (config : PlumtreeConfig) (before between : List PlumtreeInEvent) (first second : PlumtreeInEvent)
    (content : Bytes)
    (hclock : ∀ ev ∈ between, ∀ content' scope, ev.input = .broadcast content' scope →
      scope ≠ .neighbors → messageIDFromContent content' = messageIDFromContent content →
      first.now ≤ ev.now) :
    let s := (newPlumtreeState me config).run messageIDFromContent before
    let s' := (s.handle messageIDFromContent first).1.run messageIDFromContent between
    (Records messageIDFromContent s first content →
      (∃ e ∈ deliveries (s'.handle messageIDFromContent second).2, e.content = content) →
      ∃ ev ∈ between, ev.input = .timerExpired .evictCache ∧
        first.now + config.withDefaults.messageIDRetention ≤ ev.now) ∧
    (deliveries (s.handle messageIDFromContent first).2).length ≤ 1 ∧
    ∀ e ∈ deliveries (s.handle messageIDFromContent first).2, ∃ sender message,
      first.input = .recvMessage sender (.gossip message) ∧ e.content = message.content ∧
        messageIDFromContent e.content = message.id := by
  intro s s'
  refine ⟨fun hfirst ⟨e, he, hcontent⟩ => ?_, ?_, fun e he => ?_⟩
  · -- without such an eviction the record of the first step stands at the second
    by_contra hnever
    have hconfig : s.config = config.withDefaults := config_run messageIDFromContent _ before
    obtain ⟨hconfig', hinit, -⟩ := records_handle messageIDFromContent s first
    have hretained : Retained (messageIDFromContent content)
        (first.now + s.config.messageIDRetention) (s.handle messageIDFromContent first).1 :=
      ⟨hinit, _, received_of_records hfirst, Int.le_refl _⟩
    have hkept : Retained (messageIDFromContent content)
        (first.now + s.config.messageIDRetention) s' := by
      refine hretained.run fun ev hev => ⟨fun hevict => ?_, fun content' scope hin hscope hid => ?_⟩
      · by_contra hlate
        refine hnever ⟨ev, hev, hevict, ?_⟩
        rw [← hconfig]
        exact Int.not_lt.mp hlate
      · rw [hconfig']
        exact Int.add_le_add_right (hclock ev hev content' scope hin hscope hid) _
    exact hkept.not_delivered he hcontent
  · rw [(records_handle messageIDFromContent s first).2.2.2]
    exact length_recordsAfter_le _ _ _ _ _
  · obtain ⟨sender, message, hinput, rfl, hid, -⟩ := of_mem_deliveries he
    exact ⟨sender, message, hinput, rfl, hid.symm⟩

/-- A message received, evicted when its retention is over, and received again. -/
theorem run_redelivered_evicted :
    let me : PeerID := .replicate 32 0
    let p : PeerID := .replicate 32 1
    let hash : Bytes → MessageID := fun _ => .replicate 32 2
    let receive : Time → PlumtreeInEvent :=
      fun now => ⟨.recvMessage p (.gossip ⟨.replicate 32 2, [7], .swarm 0⟩), now⟩
    let between : List PlumtreeInEvent := [receive 2, ⟨.timerExpired .evictCache, 90000000001⟩]
    let s := newPlumtreeState me defaultPlumtreeConfig
    let s' := (s.handle hash (receive 1)).1.run hash between
    deliveries (s'.handle hash (receive 90000000002)).2 = [⟨[7], p, .swarm 0⟩] ∧
      ∃ ev ∈ between, ev.input = .timerExpired .evictCache ∧
        1 + defaultPlumtreeConfig.withDefaults.messageIDRetention ≤ ev.now := by
  intro me p hash receive between s s'
  have hsecond : deliveries (s'.handle hash (receive 90000000002)).2 = [⟨[7], p, .swarm 0⟩] := by
    decide
  have hfirst : Records hash s (receive 1) [7] := by
    refine .inl ⟨p, 0, ?_⟩
    decide
  have hclock : ∀ ev ∈ between, ∀ content' scope, ev.input = .broadcast content' scope →
      scope ≠ .neighbors → hash content' = hash [7] → (receive 1).now ≤ ev.now := by
    simp [between]
  have hrun := (run_redelivered hash me defaultPlumtreeConfig [] between (receive 1)
    (receive 90000000002) [7] hclock).1 hfirst
  refine ⟨hsecond, hrun ⟨⟨[7], p, .swarm 0⟩, ?_, rfl⟩⟩
  exact hsecond ▸ mem_singleton_self _

/-- With a clock that goes back, a broadcast shortens the retention of a message received before it. -/
theorem redelivered_after_clock_went_back :
    let me : PeerID := .replicate 32 0
    let p : PeerID := .replicate 32 1
    let hash : Bytes → MessageID := fun _ => .replicate 32 2
    let receive : Time → PlumtreeInEvent :=
      fun now => ⟨.recvMessage p (.gossip ⟨.replicate 32 2, [7], .swarm 0⟩), now⟩
    let between : List PlumtreeInEvent :=
      [⟨.broadcast [7] .swarm, 50⟩, ⟨.timerExpired .evictCache, 90000000050⟩]
    let s := newPlumtreeState me defaultPlumtreeConfig
    let s' := (s.handle hash (receive 100)).1.run hash between
    deliveries (s.handle hash (receive 100)).2 = [⟨[7], p, .swarm 0⟩] ∧
      deliveries (s'.handle hash (receive 90000000051)).2 = [⟨[7], p, .swarm 0⟩] ∧
      ∀ ev ∈ between, ev.input = .timerExpired .evictCache →
        ev.now < 100 + defaultPlumtreeConfig.withDefaults.messageIDRetention :=
  ⟨by decide, by decide, by decide⟩

end Iroh.GossipProto
