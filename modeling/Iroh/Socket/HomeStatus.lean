import Iroh.Common.Runs
import Iroh.Socket.RelayEffects

/-!
# The watched status of the home

Reference: `internal/socket/relay_actor.go` (`publishStatus`, `SetHomeRelay`, `InsertRelay`,
`RemoveRelay`, `run`, `runOnce`).

An operation that makes a relay the home stores `Connecting`.  After that the relay stores what it reports, if
it is the home when it looks; it reports when it dials, when it has connected and when it has lost the
connection, and nothing when it exits.
-/

namespace Iroh.Socket

/-- The goroutine is in `publishStatus`. -/
def Phase.reporting : Phase → Bool
  | .report _ _ _ | .store _ _ _ => true
  | _ => false

/-- Where the goroutine of the home's relay can be when `last` is the state that it stored last. -/
def Phase.follows (last : RelayConnState) : Phase → Bool
  | .head | .backoff | .report .connecting _ _ | .store .connecting _ _ => last = .disconnected
  | .dial | .report .connected _ _ | .store .connected _ _ => last = .connecting
  | .connected _ => last = .connected
  | .report .disconnected _ _ | .store .disconnected _ _ => last ≠ .disconnected
  | .exiting | .gone => true

lemma Phase.follows_afterReport (state : RelayConnState) (established : Bool) :
    (Phase.afterReport state established).follows state = true := by
  cases state with
  | disconnected => cases established <;> rfl
  | _ => rfl

namespace RelayActor

variable {a : RelayActor} {i j : ℕ} {u : RelayURL} {r : ActiveRelay} {last : RelayConnState}

lemma follows_nextPhase (hstored : stored r e = none)
    (h : r.phase.follows last = true) : (nextPhase r true e).follows last = true := by
  cases hphase : r.phase with
  | head =>
    cases e with
    | next =>
      cases hstopped : r.stopped with
      | true => simp [nextPhase, hphase, hstopped, Phase.follows]
      | false => simpa [nextPhase, hphase, hstopped, Phase.follows] using h
    | _ => simpa [nextPhase, hphase] using h
  | report state err established =>
    cases state <;> cases e <;> simpa [nextPhase, hphase, Phase.follows] using h
  | store state err established =>
    cases e with
    | next => simp [stored, hphase] at hstored
    | _ => simpa [nextPhase, hphase] using h
  | dial =>
    rw [hphase] at h
    obtain rfl : last = .connecting := of_decide_eq_true h
    cases e with
    | stop => cases hstopped : r.stopped <;> simp [nextPhase, hphase, hstopped, Phase.follows]
    | idle => cases hhome : r.isHome <;> simp [nextPhase, hphase, hhome, Phase.follows]
    | dialed err => cases err <;> simp [nextPhase, hphase, Phase.follows]
    | _ => simp [nextPhase, hphase, Phase.follows]
  | connected st =>
    rw [hphase] at h
    obtain rfl : last = .connected := of_decide_eq_true h
    cases e with
    | stop => cases hstopped : r.stopped <;> simp [nextPhase, hphase, hstopped, Phase.follows]
    | idle => cases hhome : r.isHome <;> simp [nextPhase, hphase, hhome, Phase.follows]
    | _ => simp [nextPhase, hphase, Phase.follows]
  | backoff =>
    cases e with
    | stop =>
      cases hstopped : r.stopped with
      | true => simp [nextPhase, hphase, hstopped, Phase.follows]
      | false => simpa [nextPhase, hphase, hstopped] using h
    | _ => simpa [nextPhase, hphase, Phase.follows] using h
  | _ => cases e <;> simp [nextPhase, hphase, Phase.follows]

/-! ## What is watched -/

def AtRest (a : RelayActor) : Prop := ∀ r ∈ a.relays, r.phase.reporting = false

instance (a : RelayActor) : Decidable a.AtRest := List.decidableBAll _ a.relays

def InLoop (a : RelayActor) (u : RelayURL) : Prop :=
  ∃ i r st, a.active.get? u = some i ∧ a.relays[i]? = some r ∧ r.phase = .connected st

def Faithful (a : RelayActor) : Prop :=
  (a.homeURL = none ↔ a.home = none) ∧ ∀ u status, a.home = some u → a.homeURL = some status →
      status.url = u ∧ (status.state = .connected ↔ a.InLoop u)

/-- The last to write what is watched was an operation, and the home's relay is not connected, or it was
a relay of the home, which has not exited since it reported that it was connected. -/
def Settled (a : RelayActor) : Prop :=
  match a.writer with
  | none => ∀ u, a.home = some u → ¬a.InLoop u
  | some i => ∀ r, a.relays[i]? = some r → a.home = some r.url ∧
      (r.phase.leaving = true → ∀ status, a.homeURL = some status → status.state ≠ .connected)

/-- The watched status is what its last writer knew. -/
structure Watched (a : RelayActor) : Prop where
  operation : a.writer = none → a.homeURL = a.home.map fun u => ⟨u, .connecting, none⟩
  relay : ∀ i, a.writer = some i → ∃ r status, a.relays[i]? = some r ∧ a.homeURL = some status ∧
    status.url = r.url ∧ (a.home = some r.url → ∀ j s, a.active.get? r.url = some j →
      a.relays[j]? = some s →
        s.phase.follows (if j = i then status.state else .disconnected) = true)

lemma watched_new (relayMap : GoMap RelayURL String) : (new relayMap).Watched := by
  refine ⟨fun _ => rfl, fun i hi => ?_⟩
  cases hi

lemma Watched.operate (h : a.Watched) (hw : a.Wired) (o : Operation) : (a.operate o).Watched := by
  have heffect := effect_operate hw o
  generalize a.operate o = a' at heffect ⊢
  cases heffect with
  | @elected b told url _ _ _ _ hhome hstatus hwriter =>
    obtain ⟨hhome', -, hstatus', hwriter'⟩ := home_ensureActiveLocked b url true
    rw [hhome] at hhome'
    rw [hstatus] at hstatus'
    rw [hwriter] at hwriter'
    refine ⟨fun _ => by rw [hstatus', hhome']; rfl, fun i hi => ?_⟩
    cases hwriter'.symm.trans hi
  | unset _ _ hhome hstatus hwriter =>
    refine ⟨fun _ => by rw [hstatus, hhome]; rfl, fun i hi => ?_⟩
    cases hwriter.symm.trans hi
  | quiet _ htouched hhome hstatus hwriter =>
    constructor
    · intro hnone
      rw [hstatus, hhome]
      exact h.operation (hwriter ▸ hnone)
    · intro i hi
      obtain ⟨r, status, hr, hst, hurl, hfollows⟩ := h.relay i (hwriter ▸ hi)
      obtain ⟨r', hr', hurl', -⟩ := htouched.old hr
      rw [hstatus, hhome, htouched.active]
      refine ⟨r', status, hr', hst, hurl.trans hurl'.symm, fun hu j s' hj hs' => ?_⟩
      obtain ⟨s, hs, -, hphase, -⟩ := htouched.new hs'
      rw [hurl'] at hu hj
      rw [hphase]
      exact hfollows hu j s hj hs
  | @started url _ hnone =>
    constructor
    · exact h.operation
    · intro i hi
      obtain ⟨r, status, hr, hst, hurl, hfollows⟩ := h.relay i hi
      have hlt := (getElem?_eq_some_iff.mp hr).1
      refine ⟨r, status, ?_, hst, hurl, fun hu j s hj hs => ?_⟩
      · rw [getElem?_start, if_neg hlt.ne, hr]
      · rw [start, GoMap.get?_set] at hj
        rw [getElem?_start] at hs
        split at hj
        · cases hj
          rw [if_pos rfl, Option.some.injEq] at hs
          subst hs
          rw [if_neg hlt.ne']
          rfl
        · obtain ⟨s', hs', -⟩ := hw.entry _ j hj
          rw [if_neg (getElem?_eq_some_iff.mp hs').1.ne] at hs
          exact hfollows hu j s hj hs

lemma homeURL_relayEvent (hr : a.relays[i]? = some r) (e : RelayEvent) :
    (a.relayEvent i e).homeURL = (stored r e).or a.homeURL ∧
      (a.relayEvent i e).writer = if (stored r e).isSome then some i else a.writer := by
  unfold RelayActor.relayEvent
  rw [hr]
  exact ⟨rfl, rfl⟩

lemma stored_eq_some (h : stored r e = some status) :
    ∃ established, r.phase = .store status.state status.lastError established ∧ e = .next ∧
      status.url = r.url := by
  unfold stored at h
  split at h
  next hphase =>
    cases h
    exact ⟨_, hphase, rfl, rfl⟩
  · cases h

lemma Watched.relayEvent (h : a.Watched) (hw : a.Wired) (k : ℕ) (e : RelayEvent) :
    (a.relayEvent k e).Watched := by
  cases hk : a.relays[k]? with
  | none =>
    have hsame : a.relayEvent k e = a := by
      unfold RelayActor.relayEvent
      rw [hk]
    rwa [hsame]
  | some rk =>
    obtain ⟨hhome, -⟩ := home_relayEvent a k e
    obtain ⟨hstatus, hwriter⟩ := homeURL_relayEvent hk e
    cases hstored : stored rk e with
    | none =>
      rw [hstored] at hstatus
      rw [hstored, Option.isSome_none, if_neg Bool.false_ne_true] at hwriter
      constructor
      · intro hnone
        rw [hstatus, hhome]
        exact h.operation (hwriter ▸ hnone)
      · intro i hi
        obtain ⟨r, status, hr, hst, hurl, hfollows⟩ := h.relay i (hwriter ▸ hi)
        obtain ⟨r', hr', hurl'⟩ := relayEvent_old hr k e
        rw [hstatus, hhome]
        refine ⟨r', status, hr', hst, hurl.trans hurl'.symm, fun hu j s' hj hs' => ?_⟩
        rw [hurl'] at hu hj
        have hbefore := get?_active_of_relayEvent hj
        obtain ⟨s, hs, rfl⟩ := getElem?_of_relayEvent hs'
        have hphase := hfollows hu j s hbefore hs
        by_cases hkj : k = j
        · subst hkj
          cases hk.symm.trans hs
          obtain ⟨t, ht, hturl⟩ := hw.entry _ _ hbefore
          cases hk.symm.trans ht
          rw [if_pos (rfl : k = k), phase_nextRelay, hturl, hu, decide_eq_true rfl]
          exact follows_nextPhase hstored hphase
        · rw [if_neg hkj]
          exact hphase
    | some status =>
      obtain ⟨established, hphase, rfl, hurl⟩ := stored_eq_some hstored
      rw [hstored] at hstatus
      rw [hstored] at hwriter
      constructor
      · intro hnone
        cases hwriter.symm.trans hnone
      · intro i hi
        cases hwriter.symm.trans hi
        rw [hstatus, getElem?_relayEvent_self hk]
        refine ⟨_, status, rfl, rfl, ?_, fun hu j s' hj hs' => ?_⟩
        · rw [url_nextRelay, hurl]
        · -- the relay that stores is the one in the map
          rw [url_nextRelay] at hj
          have hactive := hw.alive k rk hk (by rw [hphase]; exact Phase.noConfusion)
          cases hactive.symm.trans (get?_active_of_relayEvent hj)
          rw [getElem?_relayEvent_self hk, Option.some.injEq] at hs'
          subst hs'
          have hnext : nextPhase rk (a.home = some rk.url) .next =
              .afterReport status.state established := by
            unfold nextPhase
            rw [hphase]
          rw [if_pos rfl, phase_nextRelay, hnext]
          exact Phase.follows_afterReport _ _

/-! ## When what is watched is right -/

lemma connected_of_follows {phase : Phase} (hrest : phase.reporting = false)
    (h : phase.follows last = true) :
    (∃ st, phase = .connected st) ↔ last = .connected ∧ phase.leaving = false := by
  cases phase with
  | head | dial | connected st | backoff => cases last <;> simp_all [Phase.follows, Phase.leaving]
  | exiting | gone => simp [Phase.leaving]
  | _ => cases hrest

/-- **At rest, when what is watched is right.** -/
theorem faithful_iff_settled_of_watched (hw : a.Wired) (h : a.Watched) (hrest : a.AtRest) :
    a.Faithful ↔ a.Settled := by
  unfold Settled
  cases hwriter : a.writer with
  | none =>
    have hstatus := h.operation hwriter
    constructor
    · intro hfaithful u hu hloop
      rw [hu] at hstatus
      exact absurd ((hfaithful.2 u _ hu hstatus).2.mpr hloop) (by simp)
    · intro hsettled
      refine ⟨by rw [hstatus, Option.map_eq_none_iff], fun u status hu hst => ?_⟩
      rw [hu, Option.map_some, hst, Option.some.injEq] at hstatus
      subst hstatus
      exact ⟨rfl, iff_of_false (by simp) (hsettled u hu)⟩
  | some i =>
    obtain ⟨r, status, hr, hst, hurl, hfollows⟩ := h.relay i hwriter
    -- while the writer is a relay of the home, its state tells where the home's relay is
    have hloop : a.home = some r.url →
        (a.InLoop r.url ↔ status.state = .connected ∧ r.phase.leaving = false) := by
      intro hu
      constructor
      · rintro ⟨j, s, st, hj, hs, hphase⟩
        have hconnected := (connected_of_follows (hrest s (List.mem_of_getElem? hs))
          (hfollows hu j s hj hs)).mp ⟨st, hphase⟩
        split at hconnected
        next hji =>
          subst hji
          cases hr.symm.trans hs
          exact hconnected
        · cases hconnected.1
      · rintro ⟨hconnected, hleaving⟩
        have hactive := hw.alive i r hr (Phase.not_ended_of_leaving hleaving).2
        have hphase := hfollows hu i r hactive hr
        rw [if_pos rfl] at hphase
        obtain ⟨st, hst⟩ := (connected_of_follows (hrest r (List.mem_of_getElem? hr)) hphase).mpr
          ⟨hconnected, hleaving⟩
        exact ⟨i, r, st, hactive, hr, hst⟩
    constructor
    · rintro ⟨hnone, hfaithful⟩ s hs
      cases hr.symm.trans hs
      have hhome : a.home = some r.url := by
        cases hu : a.home with
        | none =>
          rw [hnone.mpr hu] at hst
          cases hst
        | some u => rw [← hurl, (hfaithful u status hu hst).1]
      refine ⟨hhome, fun hleaving status' hst' hconnected => ?_⟩
      have hin := ((hloop hhome).mp ((hfaithful _ status' hhome hst').2.mp hconnected)).2
      cases hleaving.symm.trans hin
    · intro hsettled
      obtain ⟨hhome, hleaving⟩ := hsettled r hr
      refine ⟨iff_of_false (by simp [hst]) (by simp [hhome]), fun u status' hu hst' => ?_⟩
      cases hhome.symm.trans hu
      cases hst.symm.trans hst'
      refine ⟨hurl, ?_⟩
      rw [hloop hhome]
      constructor
      · intro hconnected
        refine ⟨hconnected, ?_⟩
        by_contra hgone
        rw [Bool.not_eq_false] at hgone
        exact hleaving hgone status hst hconnected
      · exact And.left

/-- **At rest, what is watched is the status of the home exactly in the runs that settle.** -/
theorem faithful_iff_settled (relayMap : GoMap RelayURL String) (actions : List Action) :
    EachState step (fun a => a.AtRest → a.Faithful) (new relayMap) actions ↔
      EachState step (fun a => a.AtRest → a.Settled) (new relayMap) actions := by
  have hinv : EachState step (fun a => a.Wired ∧ a.Watched) (new relayMap) actions := by
    refine eachState_of_inv _ ?_ ⟨wired_new relayMap, watched_new relayMap⟩ actions
    rintro a action ⟨hw, h⟩
    refine ⟨hw.step action, ?_⟩
    cases action with
    | op o => exact h.operate hw o
    | relay i e => exact h.relayEvent hw i e
  constructor
  · intro h pre hpre hrest
    obtain ⟨hw, hwatched⟩ := hinv pre hpre
    exact (faithful_iff_settled_of_watched hw hwatched hrest).mp (h pre hpre hrest)
  · intro h pre hpre hrest
    obtain ⟨hw, hwatched⟩ := hinv pre hpre
    exact (faithful_iff_settled_of_watched hw hwatched hrest).mpr (h pre hpre hrest)

def connectedElected : List Action :=
  [.op (.insertRelay 1 "a"), .op (.insertRelay 2 "b"), .op (.dispatch 2 7), .relay 1 .next,
    .relay 1 .next, .relay 1 (.dialed none), .relay 1 .next, .op (.setHomeRelay (some 2))]

theorem connected_home_watched_connecting :
    ¬EachState step (fun a => a.AtRest → a.Faithful) (new .empty) connectedElected := by
  intro h
  have hfaithful := h connectedElected List.prefix_rfl (by decide)
  have hhome : (connectedElected.foldl step (new .empty)).home = some 2 := by decide
  have hstatus : (connectedElected.foldl step (new .empty)).homeURL = some ⟨2, .connecting, none⟩ := by
    decide
  have hphase : ((connectedElected.foldl step (new .empty)).relays[1]?).map (·.phase) =
      some (.connected .new) := by decide
  obtain ⟨r, hr, hconnected⟩ := Option.map_eq_some_iff.mp hphase
  have hloop : (connectedElected.foldl step (new .empty)).InLoop 2 :=
    ⟨1, r, .new, by decide, hr, hconnected⟩
  exact absurd ((hfaithful.2 2 _ hhome hstatus).2.mpr hloop) (by simp)

end RelayActor

end Iroh.Socket
