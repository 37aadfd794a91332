import Iroh.Common.Runs
import Iroh.Socket.RelayEffects

/-!
# Reports and the home relay

Reference: `iroh/endpoint.go` (`Bind`, `applyNetReport`, `InsertRelay`, `RemoveRelay`),
`internal/socket/relay_actor.go`.

A network report names a preferred relay.  `applyNetReport` asks the relay actor whether that relay is
configured, reads the watched status of the home, and makes the preferred relay the home if it is not.  These
are three steps, and relays are inserted and removed in between.
-/

namespace Iroh.Endpoint

open Socket

inductive ReportStage where
  /-- Before `HasRelay`. -/
  | checking
  | reading
  /-- Before `SetHomeRelay`. -/
  | setting
  | done
deriving DecidableEq

/-- A call of `applyNetReport` with a report that prefers a relay. -/
structure ReportCall where
  preferredRelay : RelayURL
  stage : ReportStage
deriving DecidableEq

structure Reports where
  relay : RelayActor
  calls : List ReportCall

namespace Reports

/-- `Bind`: the first relay becomes the home. -/
def bind (relayMap : GoMap RelayURL String) : Reports where
  relay :=
    match (RelayActor.new relayMap).urls.head? with
    | some url => (RelayActor.new relayMap).setHomeRelay (some url)
    | none => .new relayMap
  calls := []

def nextStage (relay : RelayActor) (call : ReportCall) : ReportStage :=
  match call.stage with
  | .checking => if relay.hasRelay call.preferredRelay then .reading else .done
  | .reading => if relay.homeURL.map (·.url) = some call.preferredRelay then .done else .setting
  | .setting => .done
  | .done => .done

def advance (s : Reports) (k : ℕ) : Reports :=
  match s.calls[k]? with
  | none => s
  | some call =>
    { relay := if call.stage = .setting then s.relay.setHomeRelay (some call.preferredRelay) else s.relay
      calls := s.calls.set k { call with stage := nextStage s.relay call } }

def setsHome : RelayActor.Action → Bool
  | .op (.setHomeRelay _) => true
  | _ => false

/-- A call of `applyNetReport` starts or goes on, or the relay actor takes an action of its own. -/
inductive Action where
  | apply (preferredRelay : Option RelayURL)
  | advance (k : ℕ)
  | relay (action : RelayActor.Action)
deriving DecidableEq

/-- The state after an action.  `SetHomeRelay` is called by the reports only. -/
def step (s : Reports) : Action → Reports
  | .apply none => s
  | .apply (some url) => { s with calls := s.calls ++ [⟨url, .checking⟩] }
  | .advance k => s.advance k
  | .relay action => if setsHome action then s else { s with relay := s.relay.step action }

end Reports

/-! ## The home is configured -/

def HomeConfigured (a : RelayActor) : Prop :=
  (∀ u, a.home = some u → u ∈ a.relayMap.keys) ∧ (a.home = none → ∀ u, u ∉ a.relayMap.keys)

variable {a : RelayActor}

lemma HomeConfigured.congr (h : HomeConfigured a) (hmap : a'.relayMap = a.relayMap)
    (hhome : a'.home = a.home) : HomeConfigured a' := by
  rw [HomeConfigured, hmap, hhome]
  exact h

section

variable (a : RelayActor) (url : RelayURL)

lemma relayMap_ensureActiveLocked (home : Bool) :
    (a.ensureActiveLocked url home).relayMap = a.relayMap := by
  rcases RelayActor.ensureActiveLocked_cases a url home with ⟨i, -, heq⟩ | ⟨-, heq⟩
  · rw [heq]
    split
    · rfl
    · rfl
  · rw [heq]
    rfl

lemma elect_eq : (a.elect url).relayMap = a.relayMap ∧ (a.elect url).home = some url := by
  exact ⟨relayMap_ensureActiveLocked _ _ _, (RelayActor.home_ensureActiveLocked _ _ _).1⟩

lemma homeConfigured_elect : HomeConfigured (a.elect url) ↔ url ∈ a.relayMap.keys := by
  obtain ⟨hmap, hhome⟩ := elect_eq a url
  rw [HomeConfigured, hmap, hhome]
  constructor
  · exact fun h => h.1 url rfl
  · intro h
    refine ⟨fun u hu => ?_, fun hnone => ?_⟩
    · cases hu
      exact h
    · cases hnone

end

section

variable (h : HomeConfigured a)
include h

lemma HomeConfigured.insertRelay (url : RelayURL) (token : String) :
    HomeConfigured (a.insertRelay url token) := by
  unfold RelayActor.insertRelay
  split
  · exact h
  · simp only
    split
    · have hmap := relayMap_ensureActiveLocked
        (RelayActor.publish { a with relayMap := a.relayMap.set url token, home := some url }
          (some ⟨url, .connecting, none⟩) none) url true
      have hhome := (RelayActor.home_ensureActiveLocked
        (RelayActor.publish { a with relayMap := a.relayMap.set url token, home := some url }
          (some ⟨url, .connecting, none⟩) none) url true).1
      refine ⟨fun u hu => ?_, fun hnone => ?_⟩
      · cases hhome.symm.trans hu
        rw [hmap]
        exact GoMap.mem_keys_set.mpr (.inl rfl)
      · cases hhome.symm.trans hnone
    next hhome =>
      refine ⟨fun u hu => ?_, fun hnone => absurd hnone hhome⟩
      exact GoMap.mem_keys_set.mpr (.inr (h.1 u hu))

lemma HomeConfigured.removeRelay (url : RelayURL) : HomeConfigured (a.removeRelay url) := by
  unfold RelayActor.removeRelay
  split
  · exact h
  next hin =>
    rw [not_or, Bool.not_eq_false, GoMap.contains_iff] at hin
    obtain ⟨hmap, hhome, -⟩ := RelayActor.dropRelay_eq a url
    simp only
    split
    next hne =>
      refine ⟨fun u hu => ?_, fun hnone => ?_⟩
      · rw [hmap, GoMap.mem_keys_delete]
        refine ⟨?_, h.1 u (hhome ▸ hu)⟩
        rintro rfl
        exact hne hu
      · exact absurd hin.2 (h.2 (hhome ▸ hnone) url)
    · split
      next hempty =>
        refine ⟨fun u hu => ?_, fun _ => RelayActor.not_mem_keys_of_head?_urls hempty⟩
        cases hu
      next next hnext =>
        exact (homeConfigured_elect _ next).mpr (RelayActor.mem_keys_of_head?_urls hnext)

lemma HomeConfigured.dispatch (url : RelayURL) (eid : EndpointID) :
    HomeConfigured (a.dispatch url eid) := by
  unfold RelayActor.dispatch
  split
  · exact h
  · split
    · exact h
    · split
      · exact h
      · exact h.congr (relayMap_ensureActiveLocked _ _ _) (RelayActor.home_ensureActiveLocked _ _ _).1

lemma HomeConfigured.step (hother : Reports.setsHome action = false) :
    HomeConfigured (a.step action) := by
  cases action with
  | op o =>
    cases o with
    | insertRelay url token => exact h.insertRelay url token
    | removeRelay url => exact h.removeRelay url
    | setHomeRelay url => cases hother
    | dispatch url eid => exact h.dispatch url eid
    | shutdownStop i =>
      rw [RelayActor.step, RelayActor.operate]
      split
      · exact h
      · exact h
    | _ => exact h
  | relay i e =>
    refine h.congr ?_ (RelayActor.home_relayEvent a i e).1
    rw [RelayActor.step, RelayActor.relayEvent]
    split
    · rfl
    · rfl

lemma HomeConfigured.setHomeRelay (url : RelayURL) :
    HomeConfigured (a.setHomeRelay (some url)) ↔ (a.closed = false → url ∈ a.relayMap.keys) := by
  unfold RelayActor.setHomeRelay
  split
  next hclosed => exact iff_of_true h fun hopen => absurd (hclosed.symm.trans hopen) (by decide)
  next hopen =>
    rw [Bool.not_eq_true] at hopen
    simp only
    split
    next hhome => exact iff_of_true h fun _ => h.1 url hhome
    · rw [homeConfigured_elect]
      exact ⟨fun hin _ => hin, fun hin => hin hopen⟩

end

namespace Reports

def StillConfigured (s : Reports) : Action → Prop
  | .advance k => ∀ call, s.calls[k]? = some call → call.stage = .setting → s.relay.closed = false →
      call.preferredRelay ∈ s.relay.relayMap.keys
  | _ => True

lemma homeConfigured_step {s : Reports} (h : HomeConfigured s.relay) (action : Action) :
    HomeConfigured (s.step action).relay ↔ s.StillConfigured action := by
  cases action with
  | apply preferredRelay => cases preferredRelay <;> exact iff_of_true h trivial
  | advance k =>
    rw [step, advance, StillConfigured]
    cases hk : s.calls[k]? with
    | none => exact iff_of_true h fun call hcall => by cases hcall
    | some call =>
      dsimp only
      split
      next hstage =>
        rw [h.setHomeRelay]
        constructor
        · intro hin c hc _
          cases hc
          exact hin
        · exact fun hin => hin call rfl hstage
      next hstage =>
        refine iff_of_true h fun c hc hsetting => ?_
        cases hc
        exact absurd hsetting hstage
  | relay action =>
    refine iff_of_true ?_ trivial
    rw [step]
    split
    · exact h
    next hother =>
      rw [Bool.not_eq_true] at hother
      exact h.step hother

lemma homeConfigured_bind (relayMap : GoMap RelayURL String) :
    HomeConfigured (bind relayMap).relay := by
  unfold bind
  cases hurls : (RelayActor.new relayMap).urls.head? with
  | none =>
    refine ⟨fun u hu => ?_, fun _ => RelayActor.not_mem_keys_of_head?_urls hurls⟩
    cases hu
  | some url =>
    exact (homeConfigured_elect _ url).mpr (RelayActor.mem_keys_of_head?_urls hurls)

/-- **The home is always a configured relay exactly when each report that makes its preferred relay the home
finds that relay still configured.** -/
theorem homeConfigured_iff_preferred (relayMap : GoMap RelayURL String) (actions : List Action) :
    EachState step (fun s => HomeConfigured s.relay) (bind relayMap) actions ↔
      EachStep step StillConfigured (bind relayMap) actions := by
  refine eachState_iff_of_good ?_ ?_ actions
  · exact fun s action h => homeConfigured_step h action
  · exact homeConfigured_bind relayMap

/-- The relays 1 and 2 are configured.  A report prefers 2, which is removed when the report has seen that
it is configured. -/
def removedMeanwhile : List Action :=
  [.apply (some 2), .advance 0, .relay (.op (.removeRelay 2)), .advance 0, .advance 0]

theorem home_not_configured :
    ¬EachState step (fun s => HomeConfigured s.relay) (bind (.ofList [(1, "a"), (2, "b")]))
      removedMeanwhile := by
  intro h
  obtain ⟨hin, -⟩ := h removedMeanwhile List.prefix_rfl
  exact absurd (hin 2 (by decide)) (by decide)

end Reports

end Iroh.Endpoint
