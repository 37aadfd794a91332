import Iroh.Qng.NatProbes

/-!
# One path for each route

A validated address becomes the route of a new path.  It is not queued as validated twice at a time, but
nothing remembers that it has become a path: the answer to another of its challenges, or a later round,
validates it again, and it gets a second path.  Where no address with a path answers again, the addresses
that wait to be opened are not routes yet (`Waiting`).
-/

namespace Iroh.Qng

open QntConn List

namespace NatProbes

def IsRoute (m : MultipathConn) (route : AddrPort) : Prop :=
  ∃ pid st, m.paths pid = some st ∧ st.qntRoute = some route

def OnePathPerRoute (m : MultipathConn) : Prop :=
  ∀ pid pid' st st' route, m.paths pid = some st → m.paths pid' = some st' →
    st.qntRoute = some route → st'.qntRoute = some route → pid = pid'

/-- An answer that is accepted is not from an address that has a path. -/
def AnsweredOnce (s : Probing) : Action → Prop
  | .pathResponse data _ => ∀ addr, s.conn.sentProbes.get? data = some addr → ¬ IsRoute s.multipath addr
  | _ => True

/-! ## Opening a path -/

def FreeAbove (m : MultipathConn) : Prop := ∀ pid, m.nextPathID ≤ pid → m.paths pid = none

/-- One path more is open. -/
structure Opens (m m' : MultipathConn) (st : PathOpenState) : Prop where
  free : FreeAbove m'
  opened : ∃ pid, m.paths pid = none ∧ ∀ p, m'.paths p = if p = pid then some st else m.paths p

variable {m m' : MultipathConn} {st : PathOpenState} {s : Probing}

lemma opens_openPath (h : FreeAbove m) (st : PathOpenState) : Opens m (m.openPath st) st := by
  have hpaths : ∀ p, (m.openPath st).paths p = if p = m.nextPathID then some st else m.paths p := by
    intro p
    simp [MultipathConn.openPath, MultipathConn.set, Function.update_apply]
  refine ⟨fun pid hpid => ?_, m.nextPathID, h _ (Nat.le_refl _), hpaths⟩
  have hpid : m.nextPathID + 1 ≤ pid := hpid
  rw [hpaths, if_neg (by omega)]
  exact h pid (by omega)

lemma maybeJoinPath_cases (h : FreeAbove m) (pid : ℕ) :
    m.maybeJoinPath pid = m ∨ Opens m (m.maybeJoinPath pid) (.new true none) := by
  unfold MultipathConn.maybeJoinPath
  split
  · exact .inl rfl
  · split
    · exact .inl rfl
    next hfree =>
      have hnone : m.paths pid = none := by simpa using hfree
      refine .inr ⟨fun p hp => ?_, pid, hnone, fun p => by simp [MultipathConn.set, Function.update_apply]⟩
      have hp : (if m.nextPathID ≤ pid then pid + 1 else m.nextPathID) ≤ p := hp
      have hbounds : p ≠ pid ∧ m.nextPathID ≤ p := by
        split at hp <;> omega
      simp only [MultipathConn.set, Function.update_apply, if_neg hbounds.1]
      exact h p hbounds.2

lemma Opens.isRoute (h : Opens m m' st) {route : AddrPort} (hroute : IsRoute m' route) :
    IsRoute m route ∨ st.qntRoute = some route := by
  obtain ⟨pid, -, hpaths⟩ := h.opened
  obtain ⟨p, st', hp, hst'⟩ := hroute
  rw [hpaths] at hp
  split at hp
  · exact .inr (Option.some.inj hp ▸ hst')
  · exact .inl ⟨p, st', hp, hst'⟩

lemma Opens.onePathPerRoute (h : Opens m m' st) (hone : OnePathPerRoute m)
    (hnew : ∀ route, st.qntRoute = some route → ¬ IsRoute m route) : OnePathPerRoute m' := by
  obtain ⟨pid, -, hpaths⟩ := h.opened
  intro p p' st₁ st₂ route hp hp' hroute hroute'
  rw [hpaths] at hp hp'
  split at hp
  case isTrue heq =>
    split at hp'
    case isTrue heq' => exact heq.trans heq'.symm
    case isFalse => exact absurd ⟨p', st₂, hp', hroute'⟩ (hnew route (Option.some.inj hp ▸ hroute))
  case isFalse =>
    split at hp'
    case isTrue => exact absurd ⟨p, st₁, hp, hroute⟩ (hnew route (Option.some.inj hp' ▸ hroute'))
    case isFalse => exact hone p p' st₁ st₂ route hp hp' hroute hroute'

/-- A step opens no path with a route, or one for the first validated address. -/
lemma multipath_step_cases (h : FreeAbove s.multipath) (action : Action) :
    (step s action).multipath.paths = s.multipath.paths ∧ FreeAbove (step s action).multipath ∨
      (∃ st, Opens s.multipath (step s action).multipath st ∧ st.qntRoute = none) ∨
      ∃ route rest, s.conn.validatedProbes = route :: rest ∧ (step s action).conn.validatedProbes = rest ∧
        Opens s.multipath (step s action).multipath (.new true (some route)) := by
  cases action with
  | openValidated possible =>
    simp only [step, Probing.qntOpenValidatedPathLocked]
    cases hvalidated : s.conn.validatedProbes with
    | nil => exact .inl ⟨rfl, h⟩
    | cons route rest =>
      cases possible with
      | false => exact .inl ⟨rfl, h⟩
      | true => exact .inr (.inr ⟨route, rest, rfl, rfl, opens_openPath h _⟩)
  | openPath allocated =>
    cases allocated with
    | true => exact .inr (.inl ⟨_, opens_openPath h _, rfl⟩)
    | false => exact .inl ⟨rfl, fun pid hpid => h pid (Nat.le_of_succ_le hpid)⟩
  | join pid =>
    simp only [step]
    rcases maybeJoinPath_cases h pid with heq | hopens
    · rw [heq]
      exact .inl ⟨rfl, h⟩
    · exact .inr (.inl ⟨_, hopens, rfl⟩)
  | _ => exact .inl ⟨rfl, h⟩

/-! ## Validated addresses -/

variable {c c' : QntConn}

lemma validated_eq (h : probes c' = probes c) : c'.validatedProbes = c.validatedProbes := congrArg (·.2.2.2) h

lemma validated_reachOut (frame : ReachOutFrame) :
    (c.handleReachOutFrame frame).1.validatedProbes <+ c.validatedProbes := by
  obtain ⟨base, hbase, hcases⟩ := reachOut_cases c frame
  have hkept : (c.handleReachOutFrame frame).1.validatedProbes = base.validatedProbes := by
    rcases hcases with heq | ⟨addr, -, heq⟩ <;> rw [heq]
    rfl
  rw [hkept]
  rcases hbase with rfl | ⟨-, rfl⟩
  · exact .refl _
  · -- a new round forgets the validated addresses
    exact nil_sublist _

lemma validated_send (challenge : Token) (now initialRTT : ℕ) :
    (c.sendProbe challenge now initialRTT).validatedProbes = c.validatedProbes := by
  unfold sendProbe qntPopPendingProbe
  cases c.pendingProbes with
  | nil => rfl
  | cons addr rest =>
    dsimp only
    by_cases hport : addr.port = 0
    · rw [if_pos hport]
    · rw [if_neg hport]
      exact (validated_eq (probes_qntArmNextRetry now initialRTT)).trans rfl

lemma validated_retries (order : List AddrPort) (b : Bool) :
    (order.foldl QntConn.queueProbeRetry (c, b)).1.validatedProbes = c.validatedProbes := by
  induction order generalizing c b with
  | nil => rfl
  | cons addr order ih =>
    refine (ih _).trans ?_
    split
    · rfl
    · dsimp only
      split <;> rfl

lemma validated_queue (addr : AddrPort) :
    (c.qntQueueValidatedProbe addr).validatedProbes = c.validatedProbes ∨
      addr ∉ c.validatedProbes ∧
        (c.qntQueueValidatedProbe addr).validatedProbes = c.validatedProbes ++ [addr] := by
  unfold qntQueueValidatedProbe
  split
  · exact .inl rfl
  · split
    · exact .inl rfl
    next hnew => exact .inr ⟨hnew, rfl⟩

/-- An address is only validated when it has answered a challenge. -/
lemma validated_step (s : Probing) (action : Action) :
    (step s action).conn.validatedProbes <+ s.conn.validatedProbes ∨
      ∃ data source addr, action = .pathResponse data source ∧ s.conn.sentProbes.get? data = some addr ∧
        addr ∉ s.conn.validatedProbes ∧
          (step s action).conn.validatedProbes = s.conn.validatedProbes ++ [addr] := by
  have hsame {c : QntConn} (h : c.validatedProbes = s.conn.validatedProbes) :
      c.validatedProbes <+ s.conn.validatedProbes := h ▸ .refl _
  cases action with
  | addNATTraversalAddress addr => exact .inl (hsame (validated_eq (probes_addNATTraversalAddress addr)))
  | removeNATTraversalAddress addr => exact .inl (hsame (validated_eq (probes_removeNATTraversalAddress addr)))
  | addRemoteNATTraversalAddress addr =>
    exact .inl (hsame (validated_eq (probes_addRemoteNATTraversalAddress addr)))
  | initiateNATTraversalRound =>
    simp only [step]
    split
    next h => exact .inl (hsame (initiate_ok h).2.1)
    · exact .inl (.refl _)
  | frame f =>
    cases f with
    | reachOut frame => exact .inl (validated_reachOut frame)
    | addAddress frame => exact .inl (hsame (validated_eq (probes_addRemoteFrame frame)))
    | removeAddress frame => exact .inl (hsame (validated_eq (probes_removeRemoteFrame frame)))
  | send challenge now initialRTT => exact .inl (hsame (validated_send challenge now initialRTT))
  | retry now order =>
    simp only [step, Probing.goOn, qntHandleRetryDeadline, qntQueueProbeRetries]
    left
    split
    · exact .refl _
    · refine hsame (Eq.trans ?_ (validated_retries order false))
      generalize order.foldl queueProbeRetry (s.conn, false) = r
      obtain ⟨c, b⟩ := r
      cases b <;> rfl
  | pathResponse data source =>
    simp only [step, Probing.goOn]
    rcases pathResponse_cases s.conn data source with heq | ⟨addr, nextRetry, hget, heq⟩
    · rw [heq]
      exact .inl (.refl _)
    · rw [heq]
      exact (validated_queue addr).imp hsame fun h => ⟨data, source, addr, rfl, hget, h⟩
  | openValidated possible =>
    simp only [step, Probing.qntOpenValidatedPathLocked]
    left
    split
    · exact .refl _
    next heq =>
      split
      · exact .refl _
      · rw [heq]
        exact sublist_cons_self _ _
  | openPath allocated => exact .inl (.refl _)
  | join pid => exact .inl (.refl _)

/-! ## Runs -/

/-- The validated addresses that wait to be opened are not routes yet. -/
structure Waiting (s : Probing) : Prop where
  free : FreeAbove s.multipath
  one : OnePathPerRoute s.multipath
  nodup : s.conn.validatedProbes.Nodup
  new : ∀ addr ∈ s.conn.validatedProbes, ¬ IsRoute s.multipath addr

/-- A step keeps the waiting addresses apart from the routes. -/
lemma waiting_step (action : Action) (hanswered : AnsweredOnce s action) (h : Waiting s) :
    Waiting (step s action) := by
  have hnodup : (step s action).conn.validatedProbes.Nodup := by
    rcases validated_step s action with hsub | ⟨data, source, addr, rfl, hget, hnew, heq⟩
    · exact h.nodup.sublist hsub
    · exact heq ▸ nodup_append_singleton h.nodup hnew
  have hnew : ∀ addr ∈ (step s action).conn.validatedProbes, ¬ IsRoute s.multipath addr := by
    intro a ha
    rcases validated_step s action with hsub | ⟨data, source, addr, rfl, hget, -, heq⟩
    · exact h.new a (hsub.subset ha)
    · rcases mem_append.mp (heq ▸ ha) with ha | ha
      · exact h.new a ha
      · exact mem_singleton.mp ha ▸ hanswered addr hget
  rcases multipath_step_cases h.free action with
    ⟨hpaths, hfree⟩ | ⟨st, hopens, hnone⟩ | ⟨route, rest, hvalidated, hrest, hopens⟩
  · refine ⟨hfree, ?_, hnodup, ?_⟩
    · unfold OnePathPerRoute
      rw [hpaths]
      exact h.one
    · unfold IsRoute
      rw [hpaths]
      exact hnew
  · refine ⟨hopens.free, hopens.onePathPerRoute h.one (by simp [hnone]), hnodup, fun a ha hroute => ?_⟩
    exact (hopens.isRoute hroute).elim (hnew a ha) (by simp [hnone])
  · have hnodup' := hvalidated ▸ h.nodup
    refine ⟨hopens.free, hopens.onePathPerRoute h.one ?_, hnodup, fun a ha hroute => ?_⟩
    · rintro _ ⟨⟩
      exact h.new route (hvalidated ▸ mem_cons_self)
    · rcases hopens.isRoute hroute with hold | hroute
      · exact hnew a ha hold
      · cases hroute
        exact hnodup'.notMem (hrest ▸ ha)

lemma onePathPerRoute_new : OnePathPerRoute .new := by
  intro pid pid' st st' route hpid
  cases hpid

/-- **No two paths of a client have the same route, if no address with a path answers again.** -/
theorem one_path_per_route_of_answered_once (localAddressLimit remoteAddressLimit : ℕ) (actions : List Action)
    (h : EachStep step AnsweredOnce (.start false localAddressLimit remoteAddressLimit) actions) :
    EachState step (fun s => OnePathPerRoute s.multipath)
      (.start false localAddressLimit remoteAddressLimit) actions := by
  have hstart : Waiting (.start false localAddressLimit remoteAddressLimit) :=
    ⟨fun _ _ => rfl, onePathPerRoute_new, nodup_nil, nofun⟩
  exact fun pre hpre => (eachState_of_eachStep (fun _ action => waiting_step action) hstart h pre hpre).one

/-- A client probes two addresses of its server, the second one twice.  Both challenges of the second one are
answered before its path is opened, and the next round is not answered. -/
def twoRoutes : List Action :=
  [.addNATTraversalAddress (.plain ⟨9, 1⟩), .addRemoteNATTraversalAddress (.plain ⟨1, 1⟩),
    .addRemoteNATTraversalAddress (.plain ⟨2, 1⟩), .initiateNATTraversalRound, .send 1 0 100, .send 2 0 100,
    .retry 10 [⟨2, 1⟩], .send 3 10 100, .pathResponse 1 (.plain ⟨1, 1⟩), .openValidated true,
    .pathResponse 3 (.plain ⟨2, 1⟩), .pathResponse 2 (.plain ⟨2, 1⟩), .openValidated true,
    .initiateNATTraversalRound, .send 4 50 100]

theorem one_path_per_route_of_answered_once_two :
    ((twoRoutes.foldl step (.start false 2 2)).multipath.paths 1).bind (·.qntRoute) = some ⟨1, 1⟩ ∧
      ((twoRoutes.foldl step (.start false 2 2)).multipath.paths 2).bind (·.qntRoute) = some ⟨2, 1⟩ ∧
      EachState step (fun s => OnePathPerRoute s.multipath) (.start false 2 2) twoRoutes := by
  have hnone : ∀ route, ¬ IsRoute .new route := nofun
  have hfirst : ¬ IsRoute (MultipathConn.new.openPath (.new true (some ⟨1, 1⟩))) ⟨2, 1⟩ := fun h =>
    ((opens_openPath (fun _ _ => rfl) _).isRoute h).elim (hnone _) (by decide)
  refine ⟨by decide, by decide, one_path_per_route_of_answered_once 2 2 twoRoutes ?_⟩
  simp only [twoRoutes, eachStep_cons, eachStep_nil, AnsweredOnce, and_true, true_and]
  refine ⟨fun addr _ => hnone addr, ?_, ?_⟩
  · rintro _ ⟨⟩
    exact hfirst
  · rintro _ ⟨⟩
    exact hfirst

/-- A client probes an address of its server in two rounds; it answers in both, and each time a path is
opened. -/
def twoRounds : List Action :=
  [.addNATTraversalAddress (.plain ⟨9, 1⟩), .addRemoteNATTraversalAddress (.plain ⟨1, 1⟩),
    .initiateNATTraversalRound, .send 1 0 100, .pathResponse 1 (.plain ⟨1, 1⟩), .openValidated true,
    .initiateNATTraversalRound, .send 2 50 100, .pathResponse 2 (.plain ⟨1, 1⟩), .openValidated true]

/-- The second round opens a second path with the same route. -/
theorem route_opened_twice :
    ((twoRounds.foldl step (.start false 2 2)).multipath.paths 1).bind (·.qntRoute) = some ⟨1, 1⟩ ∧
      ((twoRounds.foldl step (.start false 2 2)).multipath.paths 2).bind (·.qntRoute) = some ⟨1, 1⟩ ∧
      ¬ OnePathPerRoute (twoRounds.foldl step (.start false 2 2)).multipath := by
  have h₁ : (twoRounds.foldl step (.start false 2 2)).multipath.paths 1 =
      some (.new true (some ⟨1, 1⟩)) := by decide
  have h₂ : (twoRounds.foldl step (.start false 2 2)).multipath.paths 2 =
      some (.new true (some ⟨1, 1⟩)) := by decide
  refine ⟨by rw [h₁]; rfl, by rw [h₂]; rfl, fun h => ?_⟩
  exact absurd (h 1 2 _ _ ⟨1, 1⟩ h₁ h₂ rfl rfl) (by decide)

end NatProbes

end Iroh.Qng
