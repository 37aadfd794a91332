import Iroh.Common.Runs
import Iroh.Common.Tally
import Iroh.GossipProto.Plumtree

/-!
# Announced messages

Reference: `internal/gossipproto/plumtree.go`.

A peer announces a message by `IHave`, which makes it a graft target of the message: an entry of `missing`,
counted per peer in `nmissing` and in all in `ntargets`.  Targets leave when the message arrives, when a graft
timer picks the first of them, and when the peer is lost.
-/

namespace Iroh.GossipProto

open List GoMap

/-! ## What leaves announced messages alone -/

def PlumtreeOutEvent.isSignal : PlumtreeOutEvent → Bool
  | .emitEvent _ => true
  | .scheduleTimer _ (.sendGraft _) => true
  | _ => false

def PlumtreeCall.chase (c : PlumtreeCall) : PlumtreeConfig × Bool ×
    GoMap MessageID (List GraftTarget) × GoSet MessageID × GoMap MessageID Time ×
    List PlumtreeOutEvent :=
  (c.config, c.init, c.missing, c.graftTimerScheduled, c.received,
    c.out.filter PlumtreeOutEvent.isSignal)

abbrev SameChase (c c' : PlumtreeCall) : Prop := c.chase = c'.chase

abbrev SameMissing (c c' : PlumtreeCall) : Prop :=
  (c.nmissing, c.ntargets, c.chase) = (c'.nmissing, c'.ntargets, c'.chase)

section Same

variable {c c' : PlumtreeCall}

lemma SameMissing.chase (h : SameMissing c c') : SameChase c c' := congrArg (·.2.2) h

variable (h : SameChase c c')
include h

lemma SameChase.missing_eq : c'.missing = c.missing := (congrArg (·.2.2.1) h).symm

lemma SameChase.scheduled_eq : c'.graftTimerScheduled = c.graftTimerScheduled :=
  (congrArg (·.2.2.2.1) h).symm

lemma SameChase.received_eq : c'.received = c.received := (congrArg (·.2.2.2.2.1) h).symm

lemma SameChase.mem_out_iff (ev : PlumtreeOutEvent) (hev : ev.isSignal) : ev ∈ c'.out ↔ ev ∈ c.out := by
  have hmem := congrArg (ev ∈ ·.2.2.2.2.2) h.symm
  simpa [PlumtreeCall.chase, hev] using hmem

end Same

namespace PlumtreeCall

variable (c : PlumtreeCall)

lemma sameMissing_emit (ev : PlumtreeOutEvent) (h : ev.isSignal = false) :
    SameMissing c (c.emit ev) := by
  simp [chase, emit, h]

lemma sameMissing_addEager (peer : PeerID) : SameMissing c (c.addEager peer) := rfl

lemma sameMissing_addLazy (peer : PeerID) : SameMissing c (c.addLazy peer) := rfl

lemma sameMissing_foldl {β : Type} {f : PlumtreeCall → β → PlumtreeCall}
    (hf : ∀ c b, SameMissing c (f c b)) (l : List β) (c : PlumtreeCall) :
    SameMissing c (l.foldl f c) := by
  apply foldlRecOn (motive := SameMissing c) l f rfl
  intro c' h b _
  exact h.trans (hf c' b)

lemma sameMissing_eagerPush (message : Gossip) (sender : PeerID) :
    SameMissing c (c.eagerPush message sender) := by
  refine sameMissing_foldl (fun c peer => ?_) _ _
  split
  · rfl
  · exact c.sameMissing_emit _ rfl

lemma sameMissing_lazyPush (message : Gossip) (sender : PeerID) :
    SameMissing c (c.lazyPush message sender) := by
  have hqueue : ∀ ihave, SameMissing c (c.queueIHave ihave sender) := by
    intro ihave
    refine sameMissing_foldl (fun c peer => ?_) _ _
    split <;> rfl
  unfold lazyPush
  split
  · dsimp only
    split
    · exact hqueue _
    · exact (hqueue _).trans (sameMissing_emit _ (.scheduleTimer _ .dispatchLazyPush) rfl)
  · rfl

lemma sameMissing_optimizeTree (sender : PeerID) (message : Gossip) (ihaves : List GraftTarget) :
    SameMissing c (c.optimizeTree sender message ihaves) := by
  have hgraft : ∀ best, SameMissing c (c.graftBest best) := by
    intro best
    unfold graftBest
    split
    · rfl
    · exact (c.sameMissing_addEager best.peer).trans (sameMissing_emit _ _ rfl)
  unfold optimizeTree
  split
  · dsimp only
    split
    · exact ((hgraft _).trans (sameMissing_addLazy _ sender)).trans (sameMissing_emit _ _ rfl)
    · rfl
  · rfl

lemma sameMissing_onGraft (sender : PeerID) (graft : Graft) :
    SameMissing c (c.onGraft sender graft) := by
  unfold onGraft
  dsimp only
  split
  · exact (c.sameMissing_addEager sender).trans (sameMissing_emit _ _ rfl)
  · exact c.sameMissing_addEager sender

lemma sameMissing_onDispatchTimer : SameMissing c c.onDispatchTimer := by
  have hsend : ∀ (peer : PeerID) (l : List (List IHave)) (c : PlumtreeCall),
      SameMissing c (l.foldl (fun c ihaves => c.emit (.sendMessage peer (.iHave ihaves))) c) :=
    fun peer => sameMissing_foldl fun c ihaves => c.sameMissing_emit _ rfl
  exact sameMissing_foldl (fun c queue => Eq.trans (hsend queue.1 _ c) (by rfl)) c.lazyQueue.toList c

lemma sameMissing_countMessage (message : PlumtreeMessage) :
    SameMissing c (c.countMessage message) := by
  cases message <;> rfl

end PlumtreeCall

/-! ## Counting targets -/

/-- The targets that satisfy `q`, in `missing` and among those `taken` out of it. -/
def countTargets (q : GraftTarget → Bool) (taken : List GraftTarget)
    (missing : GoMap MessageID (List GraftTarget)) : ℤ :=
  missing.sum (fun _ targets => targets.countP q) + taken.countP q

section Counting

variable {q : GraftTarget → Bool} {taken : List GraftTarget}
  {m : GoMap MessageID (List GraftTarget)} {id : MessageID}

lemma countTargets_nonneg (q : GraftTarget → Bool) (taken : List GraftTarget)
    (m : GoMap MessageID (List GraftTarget)) : 0 ≤ countTargets q taken m :=
  Int.add_nonneg (m.sum_nonneg fun _ _ => Int.natCast_nonneg _) (Int.natCast_nonneg _)

lemma countTargets_cons (target : GraftTarget) : countTargets q (target :: taken) m =
    countTargets q taken m + if q target then 1 else 0 := by
  rw [countTargets, countP_cons, countTargets]
  split <;> simp [Int.add_assoc]

lemma countTargets_take (hsplit : m.listAt id = taken ++ rest) :
    countTargets q taken (m.put id rest) = countTargets q [] m := by
  have hsum := m.sum_put id rest (f := fun _ targets => targets.countP q) rfl
  rw [hsplit, countP_append] at hsum
  rw [countTargets, countTargets, countP_nil]
  omega

lemma countTargets_enter (target : GraftTarget) :
    countTargets q [] (m.put id (m.listAt id ++ [target])) =
      countTargets q [] m + if q target then 1 else 0 := by
  have hsum := m.sum_put id (m.listAt id ++ [target]) (f := fun _ targets => targets.countP q) rfl
  rw [countP_append, countP_singleton] at hsum
  rw [countTargets, countTargets, hsum]
  split
  · omega
  · omega

lemma countTargets_drop (peer : PeerID) : countTargets q [] (m.putAll (·.filter (·.peer ≠ peer))) =
      countTargets q [] m - countTargets (fun target => q target && target.peer = peer) [] m := by
  have hcount : ∀ targets : List GraftTarget, ((targets.filter (·.peer ≠ peer)).countP q : ℤ) =
      targets.countP q - targets.countP fun target => q target && target.peer = peer := by
    intro targets
    have h := targets.countP_eq_countP_filter_add q fun target => decide (target.peer ≠ peer)
    simp only [countP_filter, decide_not, Bool.not_not] at h ⊢
    omega
  have hsub := m.sum_sub (fun _ targets => targets.countP q)
    fun _ targets => targets.countP fun target => q target && target.peer = peer
  have hall := m.sum_putAll (f := fun _ targets => targets.countP q) (·.filter (·.peer ≠ peer))
    fun _ => rfl
  simp only [countTargets, hall, hcount, countP_nil]
  omega

end Counting

/-- The counters are right but for the targets taken out. -/
@[mk_iff]
structure Tallied (taken : List GraftTarget) (s : PlumtreeState) : Prop where
  perPeer : ∀ p, (s.nmissing.get? p).getD 0 = countTargets (·.peer = p) taken s.missing
  total : s.ntargets = countTargets (fun _ => true) taken s.missing
  nonempty : ∀ id targets, s.missing.get? id = some targets → targets ≠ []
  distinct : ∀ id targets, s.missing.get? id = some targets → (targets.map GraftTarget.peer).Nodup
  perPeer_le : ∀ p, (s.nmissing.get? p).getD 0 ≤ maxMissingPerPeer
  total_le : s.ntargets ≤ maxMissing
  timers_le : s.graftTimerScheduled.len ≤ maxMissing

section Tallied

variable {taken : List GraftTarget} {s : PlumtreeState} (h : Tallied taken s)
include h

lemma Tallied.nodup_listAt (id : MessageID) : ((s.missing.listAt id).map GraftTarget.peer).Nodup := by
  unfold listAt
  cases hlist : s.missing.get? id with
  | none => exact nodup_nil
  | some targets => exact h.distinct id targets hlist

lemma Tallied.nonempty_put {id id' : MessageID}
    (hget : (s.missing.put id l).get? id' = some targets) : targets ≠ [] := by
  rcases of_get?_put hget with ⟨-, rfl, hne⟩ | ⟨-, hget⟩
  · exact hne
  · exact h.nonempty id' targets hget

lemma Tallied.distinct_put {id id' : MessageID}
    (hl : (l.map GraftTarget.peer).Nodup) (hget : (s.missing.put id l).get? id' = some targets) :
    (targets.map GraftTarget.peer).Nodup := by
  rcases of_get?_put hget with ⟨-, rfl, -⟩ | ⟨-, hget⟩
  · exact hl
  · exact h.distinct id' targets hget

end Tallied

lemma Tallied.same {c c' : PlumtreeCall}
    (h : Tallied taken c) (hs : SameMissing c c') : Tallied taken c' := by
  simp only [PlumtreeCall.chase, Prod.mk.injEq] at hs
  obtain ⟨hcounts, htotal, -, -, hmissing, htimers, -⟩ := hs
  rw [tallied_iff, ← hcounts, ← htotal, ← hmissing, ← htimers]
  exact (tallied_iff _ _).mp h

namespace PlumtreeCall

variable {c : PlumtreeCall} {taken : List GraftTarget}

lemma tallied_take (h : Tallied [] c) (id : MessageID) (hsplit : c.missing.listAt id = taken ++ rest) :
    Tallied taken { c with missing := c.missing.put id rest }.toPlumtreeState := by
  -- the list had the rest at its end
  have hrest : (rest.map GraftTarget.peer).Nodup := by
    have hnodup := h.nodup_listAt id
    rw [hsplit, map_append] at hnodup
    exact hnodup.of_append_right
  exact { h with
    perPeer p := (h.perPeer p).trans (countTargets_take hsplit).symm
    total := h.total.trans (countTargets_take hsplit).symm
    nonempty _ _ := h.nonempty_put
    distinct _ _ := h.distinct_put hrest }

lemma tallied_forgetMissing (h : Tallied (target :: taken) c) :
    Tallied taken (c.forgetMissing target.peer) := by
  -- the target itself is counted still, so that the counter is not at zero
  have hone : 1 ≤ (c.nmissing.get? target.peer).getD 0 := by
    have hrest := countTargets_nonneg (·.peer = target.peer) taken c.missing
    rw [h.perPeer, countTargets_cons, if_pos (decide_eq_true rfl)]
    omega
  have hget : ∀ p, ((c.forgetMissing target.peer).nmissing.get? p).getD 0 =
      (c.nmissing.get? p).getD 0 - if target.peer = p then 1 else 0 := by
    intro p
    by_cases hp : target.peer = p
    · subst hp
      simp only [forgetMissing, if_true]
      split
      · rw [get?_delete, if_pos rfl, Option.getD_none]
        omega
      · rw [get?_set, if_pos rfl, Option.getD_some]
    · simp only [forgetMissing, hp, if_false, Int.sub_zero]
      split
      · rw [get?_delete, if_neg (Ne.symm hp)]
      · rw [get?_set, if_neg (Ne.symm hp)]
  have htotal := h.total.trans (countTargets_cons target)
  refine { h with perPeer := fun p => ?_, total := ?_, perPeer_le := fun p => ?_, total_le := ?_ }
  · rw [hget, h.perPeer, countTargets_cons]
    simp [forgetMissing]
  · exact Int.sub_eq_iff_eq_add.mpr htotal
  · have hle := h.perPeer_le p
    rw [hget]
    split <;> omega
  · have hle := h.total_le
    dsimp only [forgetMissing]
    omega

def forgetAll (c : PlumtreeCall) (targets : List GraftTarget) : PlumtreeCall :=
  targets.foldl (fun c target => c.forgetMissing target.peer) c

lemma tallied_forgetAll (h : Tallied taken c) : Tallied [] (c.forgetAll taken) := by
  induction taken generalizing c with
  | nil => exact h
  | cons target taken ih => exact ih (tallied_forgetMissing h)

lemma tallied_unschedule (h : Tallied taken c) (id : MessageID) : Tallied taken { c with
      graftTimerScheduled := c.graftTimerScheduled.delete id }.toPlumtreeState := by
  have hdelete := Int.ofNat_le.mpr (c.graftTimerScheduled.len_delete_le id)
  exact { h with timers_le := Int.le_trans hdelete h.timers_le }

lemma tallied_enter (h : Tallied [] c) (id : MessageID) (target : GraftTarget)
    (hpeer : (c.nmissing.get? target.peer).getD 0 < maxMissingPerPeer) (htotal : c.ntargets < maxMissing)
    (hnew : target.peer ∉ (c.missing.listAt id).map GraftTarget.peer) : Tallied [] { c with
      missing := c.missing.set id (c.missing.listAt id ++ [target])
      nmissing := c.nmissing.set target.peer ((c.nmissing.get? target.peer).getD 0 + 1)
      ntargets := c.ntargets + 1 }.toPlumtreeState := by
  -- a list with a new target is not empty, so that storing it is a `put`
  have hput : c.missing.set id (c.missing.listAt id ++ [target]) =
      c.missing.put id (c.missing.listAt id ++ [target]) := by simp [put]
  have hget : ∀ p, ((c.nmissing.set target.peer ((c.nmissing.get? target.peer).getD 0 + 1)).get?
      p).getD 0 = (c.nmissing.get? p).getD 0 + if target.peer = p then 1 else 0 := by
    intro p
    by_cases hp : p = target.peer
    · subst hp
      simp
    · simp [hp, Ne.symm hp]
  rw [hput]
  refine { h with
    perPeer := fun p => ?_
    total := ?_
    nonempty := fun _ _ => h.nonempty_put
    distinct := fun _ _ => h.distinct_put ?_
    perPeer_le := fun p => ?_
    total_le := htotal }
  · rw [countTargets_enter, hget, h.perPeer]
    simp
  · rw [countTargets_enter, ← h.total]
    simp
  · rw [map_append, nodup_append']
    exact ⟨h.nodup_listAt id, nodup_singleton _, by simpa using hnew⟩
  · rw [hget]
    split
    next hp => exact hp ▸ hpeer
    · exact (Int.add_zero _).trans_le (h.perPeer_le p)

lemma tallied_onIHaveOne (h : Tallied [] c) (sender : PeerID) (ihave : IHave) :
    Tallied [] (c.onIHaveOne sender ihave) := by
  unfold onIHaveOne
  dsimp only
  split
  · exact h
  · split
    · exact h
    next hroom =>
      simp only [not_or, Int.not_le] at hroom
      obtain ⟨hpeer, htotal, htimers, hnew⟩ := hroom
      have hentered := tallied_enter h ihave.id ⟨sender, ihave.round⟩ hpeer htotal hnew
      split
      · exact hentered
      · refine { hentered with timers_le := ?_ }
        have hset := c.graftTimerScheduled.len_set_le ihave.id ()
        dsimp only [emit]
        omega

lemma tallied_onIHave (h : Tallied [] c) (sender : PeerID) (ihaves : List IHave) :
    Tallied [] (c.onIHave sender ihaves) := by
  apply foldlRecOn (motive := fun c : PlumtreeCall => Tallied [] c) ihaves _ h
  intro c' h' ihave _
  exact tallied_onIHaveOne h' sender ihave

/-! The parts of `onSwarmGossip`: the message is remembered and passed on, its targets leave `missing`
and are counted off, and the tree is optimized. -/

def passOn (c : PlumtreeCall) (sender : PeerID) (forward : Gossip) (now : Time) : PlumtreeCall :=
  ((c.remember forward.id forward now).eagerPush forward sender).lazyPush forward sender

def takeTargets (c : PlumtreeCall) (id : MessageID) : PlumtreeCall :=
  { c with
    graftTimerScheduled := c.graftTimerScheduled.delete id
    missing := c.missing.delete id }

def countHop (c : PlumtreeCall) (round : UInt16) : PlumtreeCall :=
  if round > c.stats.maxLastDeliveryHop then
    { c with stats := { c.stats with maxLastDeliveryHop := round } }
  else c

lemma onSwarmGossip_eq (c : PlumtreeCall) (sender : PeerID) (message : Gossip) (round : UInt16)
    (now : Time) : c.onSwarmGossip sender message round now =
      let forward : Gossip := { message with scope := .swarm (round + 1) }
      let pushed := c.passOn sender forward now
      let previous := pushed.missing.listAt message.id
      (((pushed.takeTargets message.id).forgetAll previous).optimizeTree sender forward
        previous).countHop round := by
  rfl

lemma sameMissing_passOn (c : PlumtreeCall) (sender : PeerID) (forward : Gossip) (now : Time) :
    SameMissing (c.remember forward.id forward now) (c.passOn sender forward now) :=
  (sameMissing_eagerPush _ forward sender).trans (sameMissing_lazyPush _ forward sender)

lemma sameMissing_countHop (c : PlumtreeCall) (round : UInt16) : SameMissing c (c.countHop round) := by
  unfold countHop
  split
  · rfl
  · rfl

lemma tallied_onSwarmGossip (h : Tallied [] c) (sender : PeerID) (message : Gossip)
    (round : UInt16) (now : Time) : Tallied [] (c.onSwarmGossip sender message round now) := by
  rw [onSwarmGossip_eq]
  extract_lets forward pushed previous
  have hremember : Tallied [] (c.remember message.id forward now) := { h with }
  have hpushed : Tallied [] pushed := hremember.same (c.sameMissing_passOn sender forward now)
  have htaken : Tallied previous (pushed.takeTargets message.id) :=
    tallied_unschedule (tallied_take hpushed message.id (append_nil _).symm) message.id
  exact ((tallied_forgetAll htaken).same (sameMissing_optimizeTree _ _ _ _)).same
    (sameMissing_countHop _ round)

lemma sameChase_onSwarmGossip (c : PlumtreeCall) (sender : PeerID) (message : Gossip) (round : UInt16)
    (now : Time) : SameChase ((c.remember message.id message now).takeTargets message.id)
      (c.onSwarmGossip sender message round now) := by
  -- counting off touches the counters alone
  have hforget : ∀ (targets : List GraftTarget) (c : PlumtreeCall),
      SameChase c (c.forgetAll targets) := by
    intro targets
    induction targets with
    | nil => exact fun c => rfl
    | cons target targets ih => exact fun c => ih (c.forgetMissing target.peer)
  rw [onSwarmGossip_eq]
  extract_lets forward pushed previous
  have hpushed : SameMissing (c.remember message.id forward now) pushed :=
    c.sameMissing_passOn sender forward now
  have htaken : SameChase ((c.remember message.id forward now).takeTargets message.id)
      (pushed.takeTargets message.id) :=
    congrArg (fun q => (q.1, q.2.1, q.2.2.1.delete message.id, q.2.2.2.1.delete message.id,
      q.2.2.2.2)) hpushed.chase
  have hend := (sameMissing_optimizeTree ((pushed.takeTargets message.id).forgetAll previous) sender
    forward previous).trans (sameMissing_countHop _ round)
  exact (htaken.trans (hforget previous _)).trans (SameMissing.chase hend)

lemma tallied_onSendGraftTimer (h : Tallied [] c) (id : MessageID) :
    Tallied [] (c.onSendGraftTimer id) := by
  have hu := tallied_unschedule h id
  unfold onSendGraftTimer
  dsimp only
  split
  · exact hu
  · split
    · exact hu
    next target rest hlist =>
      have htake : Tallied [target] _ := tallied_take hu id hlist
      have hasked := (tallied_forgetMissing htake).same (sameMissing_addEager _ target.peer)
      exact hasked

lemma tallied_onGossip (idOf : Bytes → MessageID) (h : Tallied [] c)
    (sender : PeerID) (message : Gossip) (now : Time) :
    Tallied [] (c.onGossip idOf sender message now) := by
  unfold onGossip
  split
  · exact h
  · split
    · exact h.same ((c.sameMissing_addLazy sender).trans (sameMissing_emit _ _ rfl))
    · split
      next round _ => exact tallied_onSwarmGossip h sender message round now
      · exact h

lemma tallied_broadcast (idOf : Bytes → MessageID)
    (h : Tallied [] c) (content : Bytes) (scope : Scope) (now : Time) :
    Tallied [] (c.broadcast idOf content scope now) := by
  have hremember : ∀ id message, Tallied [] (c.remember id message now) := fun _ _ => { h with }
  unfold broadcast
  split
  · exact h.same (c.sameMissing_eagerPush _ _)
  · exact ((hremember _ _).same (sameMissing_lazyPush _ _ _)).same (sameMissing_eagerPush _ _ _)

lemma tallied_onNeighborDown (h : Tallied [] c) (peer : PeerID) :
    Tallied [] (c.onNeighborDown peer) := by
  -- as many targets go as the peer's counter says, and the counter goes with them
  have hdrop : dropTargets c.missing peer = c.missing.putAll (·.filter (·.peer ≠ peer)) := rfl
  refine ⟨fun p => ?_, ?_, fun id targets hmem => ?_, fun id targets hmem => ?_, fun p => ?_, ?_,
    h.timers_le⟩
  · simp only [onNeighborDown, hdrop, countTargets_drop, get?_delete]
    split
    next hp => simp [hp]
    next hp =>
      have hnone : ∀ target : GraftTarget, (target.peer = p && target.peer = peer) = false := by
        rintro target
        simp only [Bool.and_eq_false_imp, decide_eq_true_eq, decide_eq_false_iff_not]
        exact fun heq => heq ▸ hp
      rw [h.perPeer]
      simp [countTargets, hnone, sum_zero]
  · simp only [onNeighborDown, hdrop, countTargets_drop, h.total, h.perPeer, Bool.true_and]
  · obtain ⟨-, -, -, hne⟩ := of_get?_putAll hmem
    exact hne
  · obtain ⟨old, hold, rfl, -⟩ := of_get?_putAll hmem
    exact (h.distinct id old hold).sublist (filter_sublist.map _)
  · simp only [onNeighborDown, get?_delete]
    split
    · decide
    · exact h.perPeer_le p
  · have hle := h.total_le
    have hnonneg := countTargets_nonneg (·.peer = peer) [] c.missing
    rw [← h.perPeer] at hnonneg
    dsimp only [onNeighborDown]
    omega

lemma tallied_handleInput (idOf : Bytes → MessageID)
    (h : Tallied [] c) (now : Time) (input : PlumtreeInput) :
    Tallied [] (c.handleInput idOf now input) := by
  cases input with
  | recvMessage sender message =>
    have hcount := h.same (c.sameMissing_countMessage message)
    cases message with
    | gossip message => exact tallied_onGossip idOf hcount sender message now
    | prune => exact hcount.same (sameMissing_addLazy _ sender)
    | graft message => exact hcount.same (sameMissing_onGraft _ sender message)
    | iHave ihaves => exact tallied_onIHave hcount sender ihaves
    | unknown kind => exact hcount
  | broadcast content scope => exact tallied_broadcast idOf h content scope now
  | timerExpired timer =>
    cases timer with
    | sendGraft id => exact tallied_onSendGraftTimer h id
    | dispatchLazyPush => exact h.same c.sameMissing_onDispatchTimer
    | evictCache => exact { h with }
    | unknown kind => exact h
  | neighborUp peer => exact h.same (c.sameMissing_addEager peer)
  | neighborDown peer => exact tallied_onNeighborDown h peer
  | unknown kind => exact h

end PlumtreeCall

/-! ## Whole runs -/

namespace PlumtreeState

def run (messageIDFromContent : Bytes → MessageID) (s : PlumtreeState) (evs : List PlumtreeInEvent) :
    PlumtreeState :=
  evs.foldl (fun s ev => (s.handle messageIDFromContent ev).1) s

lemma tallied_handle (idOf : Bytes → MessageID)
    (h : Tallied [] s) (ev : PlumtreeInEvent) : Tallied [] (s.handle idOf ev).1 := by
  have hstart : Tallied [] ((PlumtreeCall.mk s []).start ev.now) := by
    unfold PlumtreeCall.start
    split
    · exact h
    · exact { h with }
  exact PlumtreeCall.tallied_handleInput idOf hstart ev.now ev.input

lemma tallied_newPlumtreeState (me : PeerID) (config : PlumtreeConfig) :
    Tallied [] (newPlumtreeState me config) where
  perPeer _ := rfl
  total := rfl
  nonempty _ _ := nofun
  distinct _ _ := nofun
  perPeer_le _ := show (0 : ℤ) ≤ maxMissingPerPeer by decide
  total_le := show (0 : ℤ) ≤ maxMissing by decide
  timers_le := show (0 : ℤ) ≤ maxMissing by decide

lemma tallied_run (idOf : Bytes → MessageID) (h : Tallied [] s)
    (evs : List PlumtreeInEvent) : Tallied [] (s.run idOf evs) := by
  apply foldlRecOn (motive := Tallied []) evs _ h
  intro s' h' ev _
  exact tallied_handle idOf h' ev

/-- The counters are right and within their limits. -/
structure MissingAccounted (s : PlumtreeState) : Prop where
  perPeer : ∀ p, (s.nmissing.get? p).getD 0 =
    (s.missing.values.flatten.countP fun target => target.peer = p : ℕ)
  total : s.ntargets = s.missing.values.flatten.length
  nonempty : ∀ id targets, s.missing.get? id = some targets → targets ≠ []
  distinct : ∀ id targets, s.missing.get? id = some targets → (targets.map GraftTarget.peer).Nodup
  perPeer_le : ∀ p, (s.nmissing.get? p).getD 0 ≤ maxMissingPerPeer
  total_le : s.ntargets ≤ maxMissing
  timers_le : s.graftTimerScheduled.len ≤ maxMissing

/-- **The accounts of announced messages agree with what is announced, and stay within bounds**, in
every state of every run. -/
theorem run_missingAccounted (messageIDFromContent : Bytes → MessageID) (me : PeerID)
    (config : PlumtreeConfig) (evs : List PlumtreeInEvent) :
    MissingAccounted ((newPlumtreeState me config).run messageIDFromContent evs) := by
  have h := tallied_run messageIDFromContent (tallied_newPlumtreeState me config) evs
  refine { h with perPeer := fun p => ?_, total := ?_ }
  · rw [h.perPeer, countTargets, sum_countP]
    exact Int.add_zero _
  · rw [h.total, countTargets, sum_countP, countP_true]
    exact Int.add_zero _

end PlumtreeState

end Iroh.GossipProto
