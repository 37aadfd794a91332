import Iroh.Common.Runs
import Iroh.Gossip.Connections

/-!
# Reports that a peer has gone

Reference: `gossip/topic.go` (`Accept`, `connect`, `dropPeer`, `disconnect`).

When a connection ends, its `Accept` takes its own sender out of the peer's place, if it is still there, and
reports the peer as gone in any case.  The place holds the newest sender, unless it was taken out since
(`Registered`), so the report is true if no other sender was entered while the `Accept` ran.
-/

namespace Iroh.Gossip

open GossipProto List

namespace PeerLink

variable {l l' : PeerLink}

/-- The sender writes to an open connection other than `conn`. -/
def onOther (l : PeerLink) (conn s : ℕ) : Bool :=
  l.senders[s]?.any fun sd => sd.conn ≠ conn && l.isOpen sd.conn

/-- When an `Accept` reports the peer as gone, no other connection is open and registered. -/
def TrueReport (l : PeerLink) (action : LinkAction) : Prop :=
  ∀ i conn s : ℕ, action = .acceptReturns i → l.accepts[i]? = some (.serving conn s) →
    ∀ s', (l.step action).peerSender = some s' → (l.step action).onOther conn s' = false

/-- The senders entered between that of a returning `Accept` and its return, on another connection that is
still open, have all been taken out. -/
def NoneEntered (l : PeerLink) : LinkAction → Prop
  | .acceptReturns i =>
    match l.accepts[i]? with
    | some (.serving conn s) =>
      ∀ s' < l.senders.length, s < s' → l.onOther conn s' → s' ∈ l.unregistered
    | _ => True
  | _ => True

instance (l : PeerLink) (action : LinkAction) : Decidable (l.NoneEntered action) := by
  unfold NoneEntered
  split
  · split <;> infer_instance
  · infer_instance

/-! ## The place of the peer -/

/-- The place holds the newest sender or none; an `Accept` that serves has a sender of its connection. -/
structure Registered (l : PeerLink) : Prop where
  taken : ∀ s ∈ l.unregistered, s < l.senders.length
  place : ∀ s, l.peerSender = some s → s + 1 = l.senders.length ∧ s ∉ l.unregistered
  serving : ∀ i conn s : ℕ, l.accepts[i]? = some (.serving conn s) →
    (l.senders.map Sender.conn)[s]? = some conn

/-- No sender is entered. -/
structure Keeps (l l' : PeerLink) : Prop where
  senders : l'.senders.map Sender.conn = l.senders.map Sender.conn
  serving : ∀ i conn s : ℕ, l'.accepts[i]? = some (.serving conn s) →
    l.accepts[i]? = some (.serving conn s)
  place : l'.peerSender = l.peerSender ∧ l'.unregistered = l.unregistered ∨
    l'.peerSender = none ∧ l'.unregistered = l.unregistered ++ l.peerSender.toList

lemma Keeps.of_eq (h : (l'.peerSender, l'.unregistered, l'.accepts) =
      (l.peerSender, l.unregistered, l.accepts))
    (hsenders : l'.senders.map Sender.conn = l.senders.map Sender.conn) : Keeps l l' := by
  rw [Prod.mk.injEq, Prod.mk.injEq] at h
  exact ⟨hsenders, fun _ _ _ hi => h.2.2 ▸ hi, .inl ⟨h.1, h.2.1⟩⟩

lemma Keeps.refl (l : PeerLink) : Keeps l l := .of_eq rfl rfl

lemma Keeps.trans (h : Keeps l l') (h' : Keeps l' l'') : Keeps l l'' := by
  refine ⟨h'.senders.trans h.senders,
    fun i conn s hi => h.serving i conn s (h'.serving i conn s hi), ?_⟩
  rcases h.place with ⟨hp, hu⟩ | ⟨hp, hu⟩ <;> rcases h'.place with ⟨hp', hu'⟩ | ⟨hp', hu'⟩
  · exact .inl ⟨hp'.trans hp, hu'.trans hu⟩
  · exact .inr ⟨hp', by rw [hu', hu, hp]⟩
  · exact .inr ⟨hp'.trans hp, hu'.trans hu⟩
  · -- taken out twice: there was nothing left the second time
    exact .inr ⟨hp', by rw [hu', hu, hp]; simp⟩

lemma keeps_closeConn (l : PeerLink) (conn : ℕ) : Keeps l (l.closeConn conn) := by
  unfold closeConn
  split <;> exact .of_eq rfl rfl

lemma map_conn_modify (senders : List Sender) (s : ℕ) (hf : ∀ sd, (f sd).conn = sd.conn) :
    (senders.modify s f).map Sender.conn = senders.map Sender.conn := by
  apply ext_getElem?
  intro i
  rw [getElem?_map, getElem?_map, getElem?_modify]
  cases senders[i]? with
  | none => rfl
  | some sd =>
    simp only [Option.map_eq_map, Option.map_some]
    split
    · rw [hf]
    · rfl

lemma keeps_closeSender (l : PeerLink) (s : ℕ) : Keeps l (l.closeSender s) :=
  .of_eq rfl (map_conn_modify l.senders s fun _ => rfl)

def OnlyStreams (l l' : PeerLink) : Prop :=
  ∃ senders nextStream events,
    l' = { l with senders := senders, nextStream := nextStream, events := events } ∧
      senders.map Sender.conn = l.senders.map Sender.conn

lemma onlyStreams_writeFrame (l : PeerLink) (s stream : ℕ) (m : QueuedMessage)
    (outcome : SendOutcome) : OnlyStreams l (l.writeFrame s stream m outcome).1 := by
  unfold writeFrame
  split
  · exact ⟨_, _, _, rfl, rfl⟩
  · exact ⟨_, _, _, rfl, map_conn_modify l.senders s fun _ => rfl⟩

lemma onlyStreams_send (l : PeerLink) (s : ℕ) (m : QueuedMessage) (outcome : SendOutcome) :
    OnlyStreams l (l.send s m outcome).1 := by
  unfold send
  split
  · exact ⟨_, _, _, rfl, rfl⟩
  · split
    · exact ⟨_, _, _, rfl, rfl⟩
    · split
      · exact l.onlyStreams_writeFrame _ _ _ _
      · split
        · exact ⟨_, _, _, rfl, rfl⟩
        · obtain ⟨senders, n, events, heq, hsenders⟩ :=
            (l.openStream s m.msg.topic).onlyStreams_writeFrame s l.nextStream m outcome
          exact ⟨senders, n, events, heq, hsenders.trans (map_conn_modify l.senders s fun _ => rfl)⟩

lemma OnlyStreams.keeps (h : OnlyStreams l l') : Keeps l l' := by
  obtain ⟨_, _, _, rfl, hsenders⟩ := h
  exact .of_eq rfl hsenders

lemma keeps_enqueue (l : PeerLink) (item : ℕ → SendItem) (start : Bool) :
    Keeps l (l.enqueue item start) := by
  unfold enqueue
  split
  · split <;> exact .of_eq rfl rfl
  · split
    · exact .refl l
    · split <;> exact .of_eq rfl rfl

lemma keeps_takeItem (l : PeerLink) (q : ℕ) (s : WriterQueue) : Keeps l (l.takeItem q s) := by
  unfold takeItem
  split <;> exact .of_eq rfl rfl

lemma getElem?_concat_eq_some {α : Type*} {as : List α} {a b : α} {i : ℕ}
    (h : (as ++ [a])[i]? = some b) : as[i]? = some b ∨ i = as.length ∧ b = a := by
  rw [getElem?_append] at h
  split at h
  · exact .inl h
  · rw [getElem?_singleton] at h
    split at h
    · exact .inr ⟨by omega, (Option.some.inj h).symm⟩
    · cases h

lemma getElem?_set_eq_some {α : Type*} {as : List α} {a b : α}
    (h : (as.set i a)[j]? = some b) : j = i ∧ b = a ∨ j ≠ i ∧ as[j]? = some b := by
  rw [getElem?_set] at h
  split at h
  next heq =>
    split at h
    · exact .inl ⟨heq.symm, (Option.some.inj h).symm⟩
    · cases h
  next hne => exact .inr ⟨Ne.symm hne, h⟩

lemma serving_append_starting {accepts : List AcceptCall} {conn i c s : ℕ}
    (hi : (accepts ++ [.starting conn])[i]? = some (.serving c s)) :
    accepts[i]? = some (.serving c s) := by
  rcases getElem?_concat_eq_some hi with hi | ⟨-, hi⟩
  · exact hi
  · cases hi

lemma serving_set {accepts : List AcceptCall} {call : AcceptCall} {i j c s : ℕ}
    (hj : (accepts.set i call)[j]? = some (.serving c s)) :
    accepts[j]? = some (.serving c s) ∨ call = .serving c s := by
  rcases getElem?_set_eq_some hj with ⟨-, hj⟩ | ⟨-, hj⟩
  · exact .inr hj.symm
  · exact .inl hj

lemma keeps_setDone (l : PeerLink) (i : ℕ) : Keeps l { l with accepts := l.accepts.set i .done } :=
  ⟨rfl, fun _ _ _ hj => (serving_set hj).resolve_right nofun, .inl ⟨rfl, rfl⟩⟩

lemma keeps_unregister (l : PeerLink) : Keeps l l.unregister :=
  ⟨rfl, fun _ _ _ => id, .inr ⟨rfl, rfl⟩⟩

lemma keeps_setWriter (l : PeerLink) (q : ℕ) (writer : Writer) : Keeps l (l.setWriter q writer) :=
  .of_eq rfl rfl

lemma keeps_dropQueueLocked (l : PeerLink) (q : ℕ) (s : WriterQueue) :
    Keeps l (l.dropQueueLocked q s) := by
  unfold dropQueueLocked
  dsimp only
  split
  · exact ⟨rfl, fun _ _ _ => id, .inr ⟨rfl, rfl⟩⟩
  · exact .of_eq rfl rfl

def Drops (l l' : PeerLink) : Prop :=
  l' = l ∨ ∃ (q : ℕ) (s : WriterQueue), l.sendQueue = some q ∧ l.queues[q]? = some s ∧
    l' = l.dropQueueLocked q s

lemma drops_dropPeer (l : PeerLink) (q : ℕ) : Drops l (l.dropPeer q) := by
  unfold dropPeer
  split
  · exact .inl rfl
  next s hq =>
    split
    · exact .inl rfl
    next hnot =>
      rw [Bool.or_eq_true, not_or, decide_eq_true_eq, not_not] at hnot
      exact .inr ⟨q, s, hnot.2, hq, rfl⟩

lemma drops_abandonQueue (l : PeerLink) : Drops l l.abandonQueue := by
  unfold abandonQueue
  split
  · exact .inl rfl
  next q hlive =>
    split
    · exact .inl rfl
    next s hq =>
      split
      · exact .inl rfl
      · exact .inr ⟨q, s, hlive, hq, rfl⟩

lemma shutdownEnd_cases (l : PeerLink) :
    l.shutdownEnd = l ∨ ∃ l', Drops l l' ∧ l.shutdownEnd = l'.disconnect := by
  unfold shutdownEnd
  split
  · exact .inl rfl
  · refine .inr ⟨_, ?_, rfl⟩
    split
    · exact .inl rfl
    next q hlive =>
      split
      · exact .inl rfl
      next s hq => exact .inr ⟨q, s, hlive, hq, rfl⟩

lemma Drops.keeps (h : Drops l l') : Keeps l l' := by
  rcases h with rfl | ⟨q, s, -, -, rfl⟩
  · exact .refl _
  · exact l.keeps_dropQueueLocked q s

lemma keeps_disconnect (l : PeerLink) : Keeps l l.disconnect :=
  ⟨rfl, fun _ _ _ => id, .inr ⟨rfl, rfl⟩⟩

lemma keeps_shutdownEnd (l : PeerLink) : Keeps l l.shutdownEnd := by
  rcases l.shutdownEnd_cases with heq | ⟨l', hdrops, heq⟩
  · rw [heq]
    exact .refl l
  · rw [heq]
    exact hdrops.keeps.trans l'.keeps_disconnect

lemma keeps_acceptReturns (l : PeerLink) (i : ℕ) : Keeps l (l.acceptReturns i) := by
  unfold acceptReturns
  split
  · split
    · exact l.keeps_unregister.trans (keeps_setDone _ i)
    · exact l.keeps_setDone i
  · exact .refl l

/-- A sender for `conn` is entered. -/
structure Enters (conn : ℕ) (l l' : PeerLink) : Prop where
  senders : l'.senders.map Sender.conn = l.senders.map Sender.conn ++ [conn]
  serving : ∀ i c s : ℕ, l'.accepts[i]? = some (.serving c s) →
    l.accepts[i]? = some (.serving c s) ∨ c = conn ∧ s = l.senders.length
  peerSender : l'.peerSender = some l.senders.length
  unregistered : l'.unregistered = l.unregistered

lemma accept_cases (l : PeerLink) (i : ℕ) :
    Keeps l (l.accept i) ∨ ∃ conn, Enters conn l (l.accept i) := by
  unfold accept
  split
  next conn hi =>
    split
    · exact .inl (l.keeps_setDone i)
    · refine .inr ⟨conn, map_append,
        fun j c s hj => (serving_set hj).imp_right fun heq => ?_, rfl, rfl⟩
      rw [AcceptCall.serving.injEq] at heq
      exact ⟨heq.1.symm, heq.2.symm⟩
  · exact .inl (.refl l)

lemma enters_publish (l : PeerLink) (q : ℕ) (s : WriterQueue) (m : QueuedMessage) (conn : ℕ) :
    Enters conn l (l.publish q s m conn) :=
  ⟨map_append, fun _ _ _ hi => .inl (serving_append_starting hi), rfl, rfl⟩

lemma write_cases (l : PeerLink) (q : ℕ) (choice : Choice) :
    Keeps l (l.write q choice) ∨ ∃ conn, Enters conn l (l.write q choice) := by
  unfold write
  cases l.queues[q]? with
  | none => exact .inl (.refl l)
  | some s =>
    obtain ⟨items, sender, dropped, writer⟩ := s
    cases writer with
    | head => exact .inl (l.keeps_takeItem q _)
    | disconnecting =>
      refine .inl ?_
      dsimp only
      split
      · exact l.keeps_setWriter q _
      · exact l.keeps_unregister.trans (keeps_setWriter _ q _)
    | closing t => exact .inl ((l.keeps_closeSender t).trans (keeps_setWriter _ q _))
    | taken m =>
      refine .inl ?_
      dsimp only
      split <;> exact l.keeps_setWriter q _
    | dialed m conn =>
      cases dropped with
      | true => exact .inl (l.keeps_setWriter q _)
      | false => exact .inr ⟨conn, l.enters_publish q _ m conn⟩
    | abandoning conn => exact .inl ((l.keeps_closeConn conn).trans (keeps_setWriter _ q _))
    | writing m t => exact .inl ((l.onlyStreams_send t m _).keeps.trans (keeps_setWriter _ q _))
    | failed => exact .inl ((l.drops_dropPeer q).keeps.trans (keeps_setWriter _ q _))
    | done => exact .inl (.refl l)
    | _ =>
      refine .inl ?_
      dsimp only
      split <;> exact .of_eq rfl rfl

theorem step_cases (l : PeerLink) (action : LinkAction) :
    Keeps l (l.step action) ∨ ∃ conn, Enters conn l (l.step action) := by
  cases action with
  | incoming => exact .inl ⟨rfl, fun _ _ _ hi => serving_append_starting hi, .inl ⟨rfl, rfl⟩⟩
  | ends conn => exact .inl (l.keeps_closeConn conn)
  | accept i => exact l.accept_cases i
  | acceptReturns i => exact .inl (l.keeps_acceptReturns i)
  | disconnect => exact .inl l.keeps_disconnect
  | write q choice => exact l.write_cases q choice
  | timeout q => exact .inl (l.drops_dropPeer q).keeps
  | abandonQueue => exact .inl l.drops_abandonQueue.keeps
  | closeConn s =>
    refine .inl ?_
    rw [step]
    split
    · dsimp only
      split
      · exact .of_eq rfl rfl
      · exact { keeps_closeConn { l with closeConns := _ } _ with }
    · exact .refl l
  | closeSender s =>
    refine .inl ?_
    rw [step]
    split
    · exact { keeps_closeSender { l with closeSenders := _ } s with }
    · exact .refl l
  | shutdown => exact .inl (.of_eq rfl rfl)
  | shutdownEnd => exact .inl l.keeps_shutdownEnd
  | _ =>
    rw [step]
    exact .inl (l.keeps_enqueue _ _)

namespace Registered

lemma keeps (h : l.Registered) (hl : Keeps l l') : l'.Registered := by
  have hlen : l'.senders.length = l.senders.length := by
    rw [← length_map (f := Sender.conn), hl.senders, length_map]
  constructor
  · rw [hlen]
    intro s hs
    rcases hl.place with ⟨-, hu⟩ | ⟨-, hu⟩
    · exact h.taken s (hu ▸ hs)
    · rw [hu, mem_append, Option.mem_toList] at hs
      exact hs.elim (h.taken s) fun hp => Nat.lt_of_succ_le (h.place s hp).1.le
  · rw [hlen]
    intro s hs
    rcases hl.place with ⟨hp, hu⟩ | ⟨hp, -⟩
    · rw [hu]
      exact h.place s (hp ▸ hs)
    · cases hp.symm.trans hs
  · intro i conn s hi
    rw [hl.senders]
    exact h.serving i conn s (hl.serving i conn s hi)

lemma enters (h : l.Registered) (hl : Enters conn l l') : l'.Registered := by
  have hlen : l'.senders.length = l.senders.length + 1 := by
    rw [← length_map (f := Sender.conn), hl.senders]
    simp
  constructor
  · rw [hlen, hl.unregistered]
    exact fun s hs => (h.taken s hs).trans (Nat.lt_succ_self _)
  · rw [hlen, hl.unregistered, hl.peerSender]
    rintro _ ⟨⟩
    exact ⟨rfl, fun hs => Nat.lt_irrefl _ (h.taken _ hs)⟩
  · intro i c s hi
    rw [hl.senders]
    rcases hl.serving i c s hi with hi | ⟨rfl, rfl⟩
    · have hget := h.serving i c s hi
      rw [List.getElem?_append_left (List.getElem?_eq_some_iff.mp hget).1, hget]
    · simp

theorem step (l : PeerLink) (action : LinkAction) (h : l.Registered) : (l.step action).Registered := by
  rcases l.step_cases action with hkeeps | ⟨conn, henters⟩
  · exact h.keeps hkeeps
  · exact h.enters henters

end Registered

lemma registered_newPeerLink : newPeerLink.Registered :=
  ⟨fun _ => nofun, fun _ => nofun, fun _ _ _ => nofun⟩

/-! ## Reports -/

lemma Registered.trueReport (h : l.Registered) {action : LinkAction} (hnone : l.NoneEntered action) :
    l.TrueReport action := by
  rintro i conn s rfl hi s' hs'
  simp only [NoneEntered, hi] at hnone
  -- who is left in the place once the sender of this `Accept` is taken out
  have hplace : l.peerSender = some s' ∧ s' ≠ s := by
    rw [PeerLink.step, PeerLink.acceptReturns, hi] at hs'
    dsimp only at hs'
    split at hs'
    · cases hs'
    next hown => exact ⟨hs', fun heq => hown (heq ▸ hs')⟩
  have hother : (l.step (.acceptReturns i)).onOther conn s' = l.onOther conn s' := by
    rw [PeerLink.step, PeerLink.acceptReturns, hi]
    dsimp only
    split <;> rfl
  obtain ⟨hnewest, hnot⟩ := h.place s' hplace.1
  have hs : s < l.senders.length := by
    have hlt := (List.getElem?_eq_some_iff.mp (h.serving i conn s hi)).1
    rwa [length_map] at hlt
  rw [hother, ← Bool.not_eq_true]
  intro hopen
  have hne := hplace.2
  exact hnot (hnone s' (by omega) (by omega) hopen)

/-- **A peer is reported gone only when it is, if no sender of another connection is entered while the
`Accept` runs**, or each that was has been taken out or its connection has ended by the report. -/
theorem true_reports_of_none_entered (actions : List LinkAction)
    (hnone : EachStep step NoneEntered newPeerLink actions) :
    EachStep step TrueReport newPeerLink actions := by
  have hinv : EachState step Registered newPeerLink actions :=
    eachState_of_inv _ Registered.step registered_newPeerLink actions
  intro pre action hpre
  exact (hinv pre ((prefix_append pre [action]).trans hpre)).trueReport (hnone pre action hpre)

/-- The second connection is taken out before the first ends. -/
def secondEndsFirst : List LinkAction :=
  [.incoming, .accept 0, .incoming, .accept 1, .ends 1, .acceptReturns 1, .ends 0, .acceptReturns 0]

theorem true_reports_of_none_entered_second :
    (secondEndsFirst.foldl step newPeerLink).unregistered = [1] ∧
      EachStep step TrueReport newPeerLink secondEndsFirst :=
  ⟨by decide, true_reports_of_none_entered secondEndsFirst (by decide)⟩

def secondConnection : List LinkAction :=
  [.incoming, .accept 0, .incoming, .accept 1, .ends 0, .acceptReturns 0]

/-- The peer is reported gone while its second connection is open and registered. -/
theorem live_peer_reported_gone : ¬EachStep step TrueReport newPeerLink secondConnection := by
  intro h
  have hreport := h [.incoming, .accept 0, .incoming, .accept 1, .ends 0] (.acceptReturns 0)
    prefix_rfl 0 0 0 rfl rfl 1 rfl
  exact absurd hreport (by decide)

end PeerLink

end Iroh.Gossip
