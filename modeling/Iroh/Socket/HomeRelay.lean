import Iroh.Common.Runs
import Iroh.Socket.RelayEffects

/-!
# The active relay of the home

Reference: `internal/socket/relay_actor.go` (`InsertRelay`, `RemoveRelay`, `SetHomeRelay`,
`ensureActiveLocked`, `run`, `dial`, `runConnected`).

An active relay stays in the map until its goroutine takes it out, also when it was told to stop or has
decided to exit.  A URL that becomes the home gets the relay that is in the map, whatever its state.
-/

namespace Iroh.Socket

namespace RelayActor

variable {a : RelayActor} {i j : ℕ} {u url : RelayURL} {r : ActiveRelay}

/-! ## The relay of the home is marked -/

def Marked (a : RelayActor) : Prop :=
  ∀ u i r, a.home = some u → a.active.get? u = some i → a.relays[i]? = some r → r.isHome = true

lemma isHome_ensureActiveLocked (h : (a.ensureActiveLocked url true).active.get? url = some i)
    (hr : (a.ensureActiveLocked url true).relays[i]? = some r) : r.isHome = true := by
  rcases ensureActiveLocked_cases a url true with ⟨k, hk, heq⟩ | ⟨hnone, heq⟩
  · rw [heq, if_pos rfl] at h hr
    cases hk.symm.trans h
    rw [update, List.getElem?_modify_eq] at hr
    obtain ⟨s, -, rfl⟩ := Option.map_eq_some_iff.mp hr
    rfl
  · rw [heq] at h hr
    rw [start, GoMap.get?_set, if_pos rfl, Option.some.injEq] at h
    rw [getElem?_start, if_pos h.symm, Option.some.injEq] at hr
    subst hr
    rfl

lemma Marked.operate (hm : a.Marked) (hw : a.Wired) (o : Operation) : (a.operate o).Marked := by
  have heffect := effect_operate hw o
  generalize a.operate o = a' at heffect ⊢
  intro u i r hu hi hr
  cases heffect with
  | @elected b told url _ _ _ _ hhome =>
    rw [(home_ensureActiveLocked b url true).1, hhome, Option.some.injEq] at hu
    subst hu
    exact isHome_ensureActiveLocked hi hr
  | unset _ _ hhome =>
    cases hhome.symm.trans hu
  | quiet _ htouched hhome =>
    rw [hhome] at hu
    rw [htouched.active] at hi
    obtain ⟨s, hs, -, -, -, hflag⟩ := htouched.new hr
    exact (hflag trivial).trans (hm u i s hu hi hs)
  | @started url _ hnone =>
    rw [start, GoMap.get?_set] at hi
    rw [getElem?_start] at hr
    split at hi
    next hurl =>
      subst hurl
      rw [if_pos (Option.some.inj hi).symm, Option.some.injEq] at hr
      subst hr
      exact decide_eq_true hu
    · obtain ⟨s, hs, -⟩ := hw.entry u i hi
      have hlt := (List.getElem?_eq_some_iff.mp hs).1
      rw [if_neg hlt.ne] at hr
      exact hm u i r hu hi hr

lemma Marked.relayEvent (hm : a.Marked) (i : ℕ) (e : RelayEvent) : (a.relayEvent i e).Marked := by
  intro u j r' hu hj hr'
  rw [(home_relayEvent a i e).1] at hu
  obtain ⟨r, hr, rfl⟩ := getElem?_of_relayEvent hr'
  have hmarked := hm u j r hu (get?_active_of_relayEvent hj) hr
  split
  · rw [isHome_nextRelay, hmarked]
  · exact hmarked

/-! ## The relay of the home runs -/

def Runs (r : ActiveRelay) : Prop := r.stopped = false ∧ r.phase.leaving = false

def RunningAt (a : RelayActor) (u : RelayURL) : Prop :=
  ∃ i r, a.active.get? u = some i ∧ a.relays[i]? = some r ∧ Runs r

def Ready (a : RelayActor) (u : RelayURL) : Prop :=
  ∀ i r, a.active.get? u = some i → a.relays[i]? = some r → Runs r

def HomeRunning (a : RelayActor) : Prop := a.closed = false → ∀ u, a.home = some u → a.RunningAt u

lemma RunningAt.ready (h : a.RunningAt u) : a.Ready u := by
  obtain ⟨k, s, hk, hs, hruns⟩ := h
  intro i r hi hr
  cases hk.symm.trans hi
  cases hs.symm.trans hr
  exact hruns

lemma Ready.runningAt (hw : a.Wired) (h : a.Ready u) (hi : a.active.get? u = some i) :
    a.RunningAt u := by
  obtain ⟨r, hr, -⟩ := hw.entry u i hi
  exact ⟨i, r, hi, hr, h i r hi hr⟩

lemma Retouched.ready
    (h : Retouched told flags a a') (hw : a.Wired) (hnot : ¬told u) : a'.Ready u ↔ a.Ready u := by
  have hsame : ∀ {r r' : ActiveRelay}, r.url = u → r'.phase = r.phase →
      (¬told r.url → r'.stopped = r.stopped) → (Runs r' ↔ Runs r) := by
    rintro r r' rfl hphase hstopped
    rw [Runs, Runs, hphase, hstopped hnot]
  constructor
  · intro hready i r hi hr
    obtain ⟨r', hr', -, hphase, hstopped, -⟩ := h.old hr
    obtain ⟨s, hs, hurl⟩ := hw.entry u i hi
    cases hs.symm.trans hr
    exact (hsame hurl hphase hstopped).mp (hready i r' (h.active ▸ hi) hr')
  · intro hready i r' hi hr'
    rw [h.active] at hi
    obtain ⟨r, hr, -, hphase, hstopped, -⟩ := h.new hr'
    obtain ⟨s, hs, hurl⟩ := hw.entry u i hi
    obtain rfl : s = r := Option.some.inj (hs.symm.trans hr)
    exact (hsame hurl hphase hstopped).mpr (hready i s hi hr)

/-- **What becomes the home runs, unless the map has a relay that does not.** -/
theorem runningAt_ensureActiveLocked (hw : a.Wired) (url : RelayURL) :
    (a.ensureActiveLocked url true).RunningAt url ↔ a.Ready url := by
  rcases ensureActiveLocked_cases a url true with ⟨k, hk, heq⟩ | ⟨hnone, heq⟩
  · rw [heq]
    have htouched : Retouched (fun _ => False) False a (a.update k fun r => r.setHome true) :=
      retouched_update fun r _ => ⟨rfl, rfl, fun _ => rfl, False.elim⟩
    constructor
    · exact fun h => (htouched.ready hw id).mp h.ready
    · exact fun h => Ready.runningAt (hw.retouched htouched) ((htouched.ready hw id).mpr h) hk
  · rw [heq]
    refine iff_of_true ⟨a.relays.length, .new url true, ?_, ?_, rfl, rfl⟩ fun i r hi _ => ?_
    · rw [start, GoMap.get?_set, if_pos rfl]
    · rw [getElem?_start, if_pos rfl]
    · cases hnone.symm.trans hi

lemma RunningAt.start (h : a.RunningAt u) (hnone : a.active.get? url = none) (home : Bool) :
    (a.start url home).RunningAt u := by
  obtain ⟨i, r, hi, hr, hruns⟩ := h
  have hne : u ≠ url := by
    rintro rfl
    cases hnone.symm.trans hi
  have hlt := (List.getElem?_eq_some_iff.mp hr).1
  refine ⟨i, r, ?_, ?_, hruns⟩
  · rw [RelayActor.start, GoMap.get?_set, if_neg hne, hi]
  · rw [getElem?_start, if_neg hlt.ne, hr]

def HomeCanceled (a : RelayActor) (i : ℕ) (e : RelayEvent) : Prop :=
  e = .canceled ∧ a.closed = false ∧ ∃ u r st, a.home = some u ∧ a.active.get? u = some i ∧
    a.relays[i]? = some r ∧ r.phase = .connected st

/-- An operation makes no URL the home whose relay does not run, and the relay of the home is not
cancelled. -/
def KeepsHome (a : RelayActor) : Action → Prop
  | .op o => ∀ url, a.elects o = some url → a.Ready url
  | .relay i e => ¬a.HomeCanceled i e

lemma homeRunning_operate (hw : a.Wired) (h : a.HomeRunning) (o : Operation) :
    (a.operate o).HomeRunning ↔ a.KeepsHome (.op o) := by
  have heffect := effect_operate hw o
  generalize a.operate o = a' at heffect ⊢
  have hkeeps : a.elects o = none → a.KeepsHome (.op o) := by
    intro hnone url hurl
    cases hnone.symm.trans hurl
  cases heffect with
  | @elected b told url helects hopen htouched htold hhome =>
    obtain ⟨hhome', hclosed', -⟩ := home_ensureActiveLocked b url true
    have hrunning : (b.ensureActiveLocked url true).HomeRunning ↔
        (b.ensureActiveLocked url true).RunningAt url := by
      constructor
      · exact fun hr => hr (hclosed'.trans hopen) url (hhome'.trans hhome)
      · intro hr _ u hu
        rw [hhome', hhome, Option.some.injEq] at hu
        exact hu ▸ hr
    rw [hrunning, runningAt_ensureActiveLocked (hw.retouched htouched), htouched.ready hw htold]
    constructor
    · intro hready u hu
      cases helects.symm.trans hu
      exact hready
    · exact fun hready => hready url helects
  | unset helects _ hhome =>
    refine iff_of_true (fun _ u hu => ?_) (hkeeps helects)
    cases hhome.symm.trans hu
  | quiet helects htouched hhome _ _ hopen =>
    refine iff_of_true (fun hclosed u hu => ?_) (hkeeps helects)
    rw [hhome] at hu
    obtain ⟨hclosed, htold⟩ := hopen hclosed
    obtain ⟨i, r, hi, -⟩ := h hclosed u hu
    have hready := (htouched.ready hw (htold u hu)).mpr (h hclosed u hu).ready
    exact hready.runningAt (hw.retouched htouched) (htouched.active ▸ hi)
  | started helects hnone =>
    refine iff_of_true (fun hclosed u hu => ?_) (hkeeps helects)
    exact (h hclosed u hu).start hnone _

lemma homeRunning_relayEvent (hm : a.Marked) (h : a.HomeRunning) (i : ℕ) (e : RelayEvent) :
    (a.relayEvent i e).HomeRunning ↔ ¬a.HomeCanceled i e := by
  obtain ⟨hhome, hclosed⟩ := home_relayEvent a i e
  constructor
  · rintro hrunning ⟨rfl, hopen, u, r, st, hu, hi, hr, hphase⟩
    obtain ⟨k, s, hk, hs, hruns⟩ := hrunning (hclosed.trans hopen) u (hhome.trans hu)
    cases hi.symm.trans (get?_active_of_relayEvent hk)
    rw [getElem?_relayEvent_self hr, Option.some.injEq] at hs
    obtain ⟨hstopped, hleaving⟩ := (h hopen u hu).ready i r hi hr
    have hexits := (leaving_nextPhase hstopped (hm u i r hu hi hr) hleaving (a.home = some r.url)
      .canceled).mpr ⟨⟨st, hphase⟩, rfl⟩
    subst hs
    rw [← phase_nextRelay, hruns.2] at hexits
    cases hexits
  · intro hnot hopen u hu
    rw [hclosed] at hopen
    rw [hhome] at hu
    obtain ⟨k, r, hk, hr, hstopped, hleaving⟩ := h hopen u hu
    have hstays : i = k → r.phase = .exiting → e ≠ .next := fun _ hexiting =>
      absurd hexiting (Phase.not_ended_of_leaving hleaving).1
    refine ⟨k, _, get?_active_relayEvent hk hr hstays, by rw [getElem?_relayEvent, hr]; rfl, ?_⟩
    split
    next hik =>
      subst hik
      refine ⟨(stopped_nextRelay _ _ _).trans hstopped, ?_⟩
      rw [phase_nextRelay, ← Bool.not_eq_true, leaving_nextPhase hstopped (hm u i r hu hk hr) hleaving]
      rintro ⟨⟨st, hst⟩, rfl⟩
      exact hnot ⟨rfl, hopen, u, r, st, hu, hk, hr, hst⟩
    · exact ⟨hstopped, hleaving⟩

/-- **The relay of the home keeps running exactly in the runs that keep it.** -/
theorem homeRunning_iff_keepsHome (relayMap : GoMap RelayURL String) (actions : List Action) :
    EachState step HomeRunning (new relayMap) actions ↔
      EachStep step KeepsHome (new relayMap) actions := by
  refine eachState_iff_of_inv (fun a => a.Wired ∧ a.Marked) ?_ ?_ ⟨wired_new relayMap, ?_⟩ ?_ actions
  · rintro a action ⟨hw, hm⟩
    refine ⟨hw.step action, ?_⟩
    cases action with
    | op o => exact hm.operate hw o
    | relay i e => exact hm.relayEvent i e
  · rintro a action ⟨hw, hm⟩ h
    cases action with
    | op o => exact homeRunning_operate hw h o
    | relay i e => exact homeRunning_relayEvent hm h i e
  · intro u i r hu
    cases hu
  · intro _ u hu
    cases hu

/-- A relay is configured, removed, and configured again before its goroutine has seen that it was told
to stop. -/
def configuredAgain : List Action :=
  [.op (.insertRelay 1 "a"), .op (.removeRelay 1), .op (.insertRelay 1 "a")]

theorem home_told_to_stop : ¬EachState step HomeRunning (new .empty) configuredAgain := by
  intro h
  obtain ⟨i, r, hi, hr, hstopped, -⟩ := h configuredAgain List.prefix_rfl (by decide) 1 (by decide)
  have hzero : (configuredAgain.foldl step (new .empty)).active.get? 1 = some 0 := by decide
  cases hzero.symm.trans hi
  have htold : ((configuredAgain.foldl step (new .empty)).relays[0]?).map (·.stopped) = some true := by
    decide
  rw [hr, Option.map_some, hstopped] at htold
  cases htold

/-- **No two goroutines serve one relay**: of the active relays for a URL at most one has a goroutine that
is not gone. -/
theorem one_running_relay_per_url (relayMap : GoMap RelayURL String) (actions : List Action) :
    EachState step (fun a => ∀ (i j : ℕ) (r s : ActiveRelay), a.relays[i]? = some r → a.relays[j]? = some s →
      r.url = s.url → r.phase ≠ .gone → s.phase ≠ .gone → i = j) (new relayMap) actions := by
  intro pre hpre i j r s hr hs hurl hrun hrun'
  have hw := eachState_of_inv Wired (fun _ action h => h.step action) (wired_new relayMap) actions pre hpre
  have hentry := hw.alive i r hr hrun
  rw [hurl, hw.alive j s hs hrun'] at hentry
  exact (Option.some.inj hentry).symm

end RelayActor

end Iroh.Socket
