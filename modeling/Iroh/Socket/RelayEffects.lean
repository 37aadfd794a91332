import Iroh.Socket.RelayActor

/-!
# What the operations and the active relays do

Reference: `internal/socket/relay_actor.go`.

An operation either makes a relay the home, unsets the home, starts a relay for something to send, or does
no more than tell some relays to stop (`effect_operate`).  An event of an active relay changes that relay,
and takes it out of the map when it is gone.
-/

namespace Iroh.Socket

open List GoMap

namespace RelayActor

variable {a : RelayActor} {i j : ℕ} {u url : RelayURL} {r : ActiveRelay}

/-! ## Events of an active relay -/

lemma handleRoutes_eq (r : ActiveRelay) (msg : RelayToClientMsg) :
    ∃ routes lastSrc, r.handleRoutes msg = { r with routes, lastSrc } := by
  have hnote : ∀ eid, ∃ routes lastSrc, r.noteRoute eid = { r with routes, lastSrc } := by
    intro eid
    unfold ActiveRelay.noteRoute
    split
    · exact ⟨_, _, rfl⟩
    · exact ⟨_, _, rfl⟩
  cases msg with
  | datagram eid d | datagramBatch eid d => exact hnote eid
  | _ => exact ⟨_, _, rfl⟩

section

variable (r : ActiveRelay) (home : Bool) (e : RelayEvent)
include home

lemma nextRelay_eq :
    ∃ routes lastSrc, nextRelay r home e = { r with routes, lastSrc, phase := nextPhase r home e } := by
  unfold nextRelay
  split
  next _ msg _ _ =>
    obtain ⟨routes, lastSrc, heq⟩ := handleRoutes_eq r msg
    exact ⟨routes, lastSrc, by rw [heq]⟩
  · exact ⟨r.routes, r.lastSrc, rfl⟩

@[simp] lemma url_nextRelay : (nextRelay r home e).url = r.url := by
  obtain ⟨routes, lastSrc, heq⟩ := nextRelay_eq r home e
  rw [heq]

@[simp] lemma stopped_nextRelay : (nextRelay r home e).stopped = r.stopped := by
  obtain ⟨routes, lastSrc, heq⟩ := nextRelay_eq r home e
  rw [heq]

@[simp] lemma isHome_nextRelay : (nextRelay r home e).isHome = r.isHome := by
  obtain ⟨routes, lastSrc, heq⟩ := nextRelay_eq r home e
  rw [heq]

@[simp] lemma phase_nextRelay : (nextRelay r home e).phase = nextPhase r home e := by
  obtain ⟨routes, lastSrc, heq⟩ := nextRelay_eq r home e
  rw [heq]

end

lemma leaving_afterReport (state : RelayConnState) (established : Bool) :
    (Phase.afterReport state established).leaving = false := by
  cases state with
  | disconnected => cases established <;> rfl
  | _ => rfl

lemma Phase.not_ended_of_leaving {phase : Phase} (h : phase.leaving = false) :
    phase ≠ .exiting ∧ phase ≠ .gone := by
  constructor
  · rintro rfl
    cases h
  · rintro rfl
    cases h

/-- **When the relay of the home exits.**  One that was not told to stop, and is marked as the home, exits
only if its receive loop is cancelled. -/
theorem leaving_nextPhase (hstopped : r.stopped = false) (hhome : r.isHome = true)
    (hr : r.phase.leaving = false) (home : Bool) (e : RelayEvent) :
    (nextPhase r home e).leaving = true ↔ (∃ st, r.phase = .connected st) ∧ e = .canceled := by
  cases hphase : r.phase with
  | head | backoff => cases e <;> simp [nextPhase, hphase, hstopped, Phase.leaving]
  | report state err established =>
    cases e <;> cases home <;> simp [nextPhase, hphase, leaving_afterReport] <;> simp [Phase.leaving]
  | store state err established =>
    cases e <;> simp [nextPhase, hphase, leaving_afterReport] <;> simp [Phase.leaving]
  | dial =>
    cases e with
    | dialed err => cases err <;> simp [nextPhase, hphase, Phase.leaving]
    | _ => simp [nextPhase, hphase, hstopped, hhome, Phase.leaving]
  | connected st => cases e <;> simp [nextPhase, hphase, hstopped, hhome, Phase.leaving]
  | _ => simp [hphase, Phase.leaving] at hr

/-! ## The map of active relays -/

/-- The map has the relays by their URLs, and every relay whose goroutine is not gone. -/
structure Wired (a : RelayActor) : Prop where
  entry : ∀ u i, a.active.get? u = some i → ∃ r, a.relays[i]? = some r ∧ r.url = u
  alive : ∀ i r, a.relays[i]? = some r → r.phase ≠ .gone → a.active.get? r.url = some i

lemma wired_new (relayMap : GoMap RelayURL String) : (new relayMap).Wired := by
  constructor
  · intro u i hi
    cases hi
  · intro i r hr
    cases hr

/-- The same relays; only those `told` may be stopped, and `flags` keeps the home flags. -/
structure Retouched (told : RelayURL → Prop) (flags : Prop) (a a' : RelayActor) : Prop where
  active : a'.active = a.active
  length : a'.relays.length = a.relays.length
  relays : ∀ (j : ℕ) (r r' : ActiveRelay), a.relays[j]? = some r → a'.relays[j]? = some r' →
    r'.url = r.url ∧ r'.phase = r.phase ∧ (¬told r.url → r'.stopped = r.stopped) ∧
      (flags → r'.isHome = r.isHome)

section Retouched

variable {told : RelayURL → Prop} {flags : Prop} {a' : RelayActor} {r' : ActiveRelay}

lemma Retouched.of_eq (told : RelayURL → Prop) (flags : Prop) (hactive : a'.active = a.active)
    (hrelays : a'.relays = a.relays) : Retouched told flags a a' := by
  refine ⟨hactive, congrArg List.length hrelays, fun j r r' hr hr' => ?_⟩
  rw [hrelays, hr, Option.some.injEq] at hr'
  subst hr'
  exact ⟨rfl, rfl, fun _ => rfl, fun _ => rfl⟩

lemma Retouched.congr (h : Retouched told flags a a') (hactive : b.active = a'.active)
    (hrelays : b.relays = a'.relays) : Retouched told flags a b := by
  refine ⟨hactive.trans h.active, hrelays ▸ h.length, fun j r r' hr hr' => ?_⟩
  rw [hrelays] at hr'
  exact h.relays j r r' hr hr'

lemma Retouched.old (h : Retouched told flags a a') (hr : a.relays[j]? = some r) :
    ∃ r', a'.relays[j]? = some r' ∧ r'.url = r.url ∧ r'.phase = r.phase ∧
      (¬told r.url → r'.stopped = r.stopped) ∧ (flags → r'.isHome = r.isHome) := by
  have hlt : j < a'.relays.length := h.length ▸ (List.getElem?_eq_some_iff.mp hr).1
  have hr' := getElem?_eq_getElem hlt
  exact ⟨_, hr', h.relays j r _ hr hr'⟩

lemma Retouched.new (h : Retouched told flags a a') (hr' : a'.relays[j]? = some r') :
    ∃ r, a.relays[j]? = some r ∧ r'.url = r.url ∧ r'.phase = r.phase ∧
      (¬told r.url → r'.stopped = r.stopped) ∧ (flags → r'.isHome = r.isHome) := by
  have hlt : j < a.relays.length := h.length ▸ (List.getElem?_eq_some_iff.mp hr').1
  have hr := getElem?_eq_getElem hlt
  exact ⟨_, hr, h.relays j _ r' hr hr'⟩

lemma Retouched.mono (h : Retouched told flags a a')
    (htold : ∀ u, told u → told' u) (hflags : flags' → flags) : Retouched told' flags' a a' := by
  refine ⟨h.active, h.length, fun j r r' hr hr' => ?_⟩
  obtain ⟨hurl, hphase, hstopped, hhome⟩ := h.relays j r r' hr hr'
  exact ⟨hurl, hphase, fun hnot => hstopped fun ht => hnot (htold _ ht), fun hf => hhome (hflags hf)⟩

lemma Retouched.trans (h : Retouched told flags a a')
    (h' : Retouched told flags a' a'') : Retouched told flags a a'' := by
  refine ⟨h'.active.trans h.active, h'.length.trans h.length, fun j r r'' hr hr'' => ?_⟩
  obtain ⟨r', hr', hurl, hphase, hstopped, hhome⟩ := h.old hr
  obtain ⟨hurl', hphase', hstopped', hhome'⟩ := h'.relays j r' r'' hr' hr''
  refine ⟨hurl'.trans hurl, hphase'.trans hphase, fun hnot => ?_, fun hf => ?_⟩
  · exact (hstopped' (hurl ▸ hnot)).trans (hstopped hnot)
  · exact (hhome' hf).trans (hhome hf)

lemma Wired.retouched (hw : a.Wired) (h : Retouched told flags a a') : a'.Wired := by
  constructor
  · intro u i hi
    rw [h.active] at hi
    obtain ⟨r, hr, rfl⟩ := hw.entry u i hi
    obtain ⟨r', hr', hurl, -⟩ := h.old hr
    exact ⟨r', hr', hurl⟩
  · intro i r' hr' hgone
    obtain ⟨r, hr, hurl, hphase, -⟩ := h.new hr'
    rw [h.active, hurl]
    exact hw.alive i r hr (hphase ▸ hgone)

lemma retouched_update (hf : ∀ r, a.relays[i]? = some r → (f r).url = r.url ∧ (f r).phase = r.phase ∧
      (¬told r.url → (f r).stopped = r.stopped) ∧ (flags → (f r).isHome = r.isHome)) :
    Retouched told flags a (a.update i f) := by
  refine ⟨rfl, length_modify _ _ _, fun j r r' hr hr' => ?_⟩
  rw [update, getElem?_modify, hr] at hr'
  cases hr'
  split
  next hij =>
    subst hij
    exact hf r hr
  · exact ⟨rfl, rfl, fun _ => rfl, fun _ => rfl⟩

lemma retouched_setHomes (home : Option RelayURL) : Retouched told False a (a.setHomes home) := by
  refine ⟨rfl, length_mapIdx, fun j r r' hr hr' => ?_⟩
  rw [setHomes, getElem?_mapIdx, hr] at hr'
  cases hr'
  dsimp only
  split
  · exact ⟨rfl, rfl, fun _ => rfl, False.elim⟩
  · exact ⟨rfl, rfl, fun _ => rfl, fun _ => rfl⟩

end Retouched

lemma getElem?_start (a : RelayActor) (url : RelayURL) (home : Bool) (j : ℕ) :
    (a.start url home).relays[j]? =
      if j = a.relays.length then some (.new url home) else a.relays[j]? := by
  split
  next hj =>
    subst hj
    exact getElem?_concat_length
  next hj =>
    rcases Nat.lt_or_gt_of_ne hj with hlt | hgt
    · exact getElem?_append_left hlt
    · rw [getElem?_eq_none (Nat.le_of_lt hgt)]
      refine getElem?_eq_none ?_
      rw [start, length_append]
      exact hgt

lemma ensureActiveLocked_cases (a : RelayActor) (url : RelayURL) (home : Bool) :
    (∃ i, a.active.get? url = some i ∧ a.ensureActiveLocked url home =
        if home then a.update i fun r => r.setHome true else a) ∨
      (a.active.get? url = none ∧ a.ensureActiveLocked url home = a.start url home) := by
  unfold ensureActiveLocked
  cases h : a.active.get? url with
  | none => exact .inr ⟨rfl, rfl⟩
  | some i => exact .inl ⟨i, rfl, rfl⟩

lemma Wired.start (hw : a.Wired) (hnone : a.active.get? url = none) (home : Bool) :
    (a.start url home).Wired := by
  constructor
  · intro u i hi
    rw [RelayActor.start, get?_set] at hi
    split at hi
    next hu =>
      cases hi
      exact ⟨.new url home, by rw [getElem?_start, if_pos rfl], hu.symm⟩
    · obtain ⟨r, hr, rfl⟩ := hw.entry u i hi
      have hlt := (List.getElem?_eq_some_iff.mp hr).1
      exact ⟨r, by rw [getElem?_start, if_neg hlt.ne, hr], rfl⟩
  · intro i r hr hgone
    rw [getElem?_start] at hr
    rw [RelayActor.start, get?_set]
    split at hr
    next hi =>
      cases hr
      exact (if_pos rfl).trans (congrArg some hi.symm)
    · have hactive := hw.alive i r hr hgone
      rw [if_neg, hactive]
      rintro rfl
      cases hnone.symm.trans hactive

lemma Wired.ensureActiveLocked (hw : a.Wired) (url : RelayURL) (home : Bool) :
    (a.ensureActiveLocked url home).Wired := by
  rcases ensureActiveLocked_cases a url home with ⟨i, -, heq⟩ | ⟨hnone, heq⟩
  · rw [heq]
    split
    · have htouched : Retouched (fun _ => False) False a (a.update i fun r => r.setHome true) :=
        retouched_update fun r _ => ⟨rfl, rfl, fun _ => rfl, False.elim⟩
      exact hw.retouched htouched
    · exact hw
  · rw [heq]
    exact hw.start hnone home

lemma home_ensureActiveLocked (a : RelayActor) (url : RelayURL) (home : Bool) :
    (a.ensureActiveLocked url home).home = a.home ∧ (a.ensureActiveLocked url home).closed = a.closed ∧
      (a.ensureActiveLocked url home).homeURL = a.homeURL ∧
        (a.ensureActiveLocked url home).writer = a.writer := by
  rcases ensureActiveLocked_cases a url home with ⟨k, -, heq⟩ | ⟨-, heq⟩
  · rw [heq]
    split
    · exact ⟨rfl, rfl, rfl, rfl⟩
    · exact ⟨rfl, rfl, rfl, rfl⟩
  · rw [heq]
    exact ⟨rfl, rfl, rfl, rfl⟩

lemma getElem?_relayEvent (a : RelayActor) (i : ℕ) (e : RelayEvent) (j : ℕ) :
    (a.relayEvent i e).relays[j]? = (a.relays[j]?).map fun r =>
      if i = j then nextRelay r (a.home = some r.url) e else r := by
  unfold RelayActor.relayEvent
  split
  next hi =>
    cases hj : a.relays[j]? with
    | none => rfl
    | some s =>
      have hij : i ≠ j := by
        rintro rfl
        cases hi.symm.trans hj
      rw [Option.map_some, if_neg hij]
  next r hi =>
    rw [getElem?_set]
    split
    next hij =>
      subst hij
      rw [if_pos (List.getElem?_eq_some_iff.mp hi).1, hi]
      rfl
    · cases a.relays[j]? with
      | _ => rfl

lemma getElem?_relayEvent_self (hr : a.relays[i]? = some r) (e : RelayEvent) :
    (a.relayEvent i e).relays[i]? = some (nextRelay r (a.home = some r.url) e) := by
  rw [getElem?_relayEvent, hr, Option.map_some, if_pos rfl]

lemma relayEvent_old (hr : a.relays[j]? = some r) (i : ℕ) (e : RelayEvent) :
    ∃ r', (a.relayEvent i e).relays[j]? = some r' ∧ r'.url = r.url := by
  rw [getElem?_relayEvent, hr]
  refine ⟨_, rfl, ?_⟩
  split
  · exact url_nextRelay _ _ _
  · rfl

lemma getElem?_of_relayEvent (h : (a.relayEvent i e).relays[j]? = some r') :
    ∃ r, a.relays[j]? = some r ∧ r' = if i = j then nextRelay r (a.home = some r.url) e else r := by
  rw [getElem?_relayEvent] at h
  obtain ⟨r, hr, rfl⟩ := Option.map_eq_some_iff.mp h
  exact ⟨r, hr, rfl⟩

lemma active_relayEvent (a : RelayActor) (i : ℕ) (e : RelayEvent) :
    (a.relayEvent i e).active = a.active ∨ ∃ r, a.relays[i]? = some r ∧ r.phase = .exiting ∧
      e = .next ∧ a.active.get? r.url = some i ∧
      (a.relayEvent i e).active = a.active.delete r.url := by
  unfold RelayActor.relayEvent
  cases hr : a.relays[i]? with
  | none => exact .inl rfl
  | some r =>
    dsimp only
    split
    next h => exact .inr ⟨r, rfl, h.1, h.2.1, h.2.2, rfl⟩
    · exact .inl rfl

lemma get?_active_of_relayEvent (h : (a.relayEvent i e).active.get? u = some j) :
    a.active.get? u = some j := by
  rcases active_relayEvent a i e with heq | ⟨r, -, -, -, -, heq⟩
  · rwa [heq] at h
  · rw [heq, get?_delete] at h
    split at h
    · cases h
    · exact h

/-- A relay stays in the map unless this is the last event of its goroutine. -/
lemma get?_active_relayEvent (hu : a.active.get? u = some j) (hr : a.relays[j]? = some r)
    (hstays : i = j → r.phase = .exiting → e ≠ .next) :
    (a.relayEvent i e).active.get? u = some j := by
  rcases active_relayEvent a i e with heq | ⟨s, hs, hexiting, hnext, hactive, heq⟩
  · rw [heq, hu]
  · rw [heq, get?_delete, if_neg, hu]
    rintro rfl
    cases hu.symm.trans hactive
    cases hr.symm.trans hs
    exact hstays rfl hexiting hnext

lemma home_relayEvent (a : RelayActor) (i : ℕ) (e : RelayEvent) :
    (a.relayEvent i e).home = a.home ∧ (a.relayEvent i e).closed = a.closed := by
  unfold RelayActor.relayEvent
  split
  · exact ⟨rfl, rfl⟩
  · exact ⟨rfl, rfl⟩

lemma Wired.relayEvent (hw : a.Wired) (i : ℕ) (e : RelayEvent) : (a.relayEvent i e).Wired := by
  constructor
  · intro u j hj
    obtain ⟨r, hr, rfl⟩ := hw.entry u j (get?_active_of_relayEvent hj)
    exact relayEvent_old hr i e
  · intro j r' hr' hgone
    obtain ⟨r, hr, rfl⟩ := getElem?_of_relayEvent hr'
    split at hgone
    next hij =>
      rw [phase_nextRelay] at hgone
      rw [if_pos hij, url_nextRelay]
      refine get?_active_relayEvent (hw.alive j r hr ?_) hr fun _ hexiting hnext => hgone ?_
      · intro hphase
        simp [nextPhase, hphase] at hgone
      · simp [nextPhase, hexiting, hnext]
    next hij =>
      rw [if_neg hij]
      exact get?_active_relayEvent (hw.alive j r hr hgone) hr fun heq => absurd heq hij

/-! ## What an operation does -/

def elects (a : RelayActor) : Operation → Option RelayURL
  | .insertRelay url _ => if a.closed = false ∧ a.home = none then some url else none
  | .removeRelay url =>
    if a.closed = false ∧ a.relayMap.contains url = true ∧ a.home = some url then
      (a.dropRelay url).urls.head?
    else none
  | .setHomeRelay (some url) => if a.closed = false ∧ a.home ≠ some url then some url else none
  | _ => none

inductive Effect (a : RelayActor) (o : Operation) : RelayActor → Prop where
  | elected {b : RelayActor} {told : RelayURL → Prop} {url : RelayURL} (helects : a.elects o = some url)
      (hopen : b.closed = false) (htouched : Retouched told False a b) (htold : ¬told url)
      (hhome : b.home = some url) (hstatus : b.homeURL = some ⟨url, .connecting, none⟩)
      (hwriter : b.writer = none) : Effect a o (b.ensureActiveLocked url true)
  | unset {a' : RelayActor} {told : RelayURL → Prop} (helects : a.elects o = none)
      (htouched : Retouched told False a a') (hhome : a'.home = none) (hstatus : a'.homeURL = none)
      (hwriter : a'.writer = none) : Effect a o a'
  /-- The home stays, and its relay is not told to stop unless the actor is shut down. -/
  | quiet {a' : RelayActor} {told : RelayURL → Prop} (helects : a.elects o = none)
      (htouched : Retouched told True a a') (hhome : a'.home = a.home) (hstatus : a'.homeURL = a.homeURL)
      (hwriter : a'.writer = a.writer)
      (hopen : a'.closed = false → a.closed = false ∧ ∀ u, a.home = some u → ¬told u) : Effect a o a'
  | started {url : RelayURL} (helects : a.elects o = none) (hnone : a.active.get? url = none) :
      Effect a o (a.start url (a.home = some url))

lemma Effect.same (helects : a.elects o = none) : Effect a o a :=
  .quiet helects (.of_eq (fun _ => False) True rfl rfl) rfl rfl rfl fun h => ⟨h, fun _ _ => id⟩

lemma retouched_dropRelay (hw : a.Wired) (url : RelayURL) :
    Retouched (· = url) True a (a.dropRelay url) := by
  unfold dropRelay
  simp only
  split
  next i hi =>
    have htouched : Retouched (· = url) True a (a.stop i) := by
      refine retouched_update fun r hr => ⟨rfl, rfl, fun hne => ?_, fun _ => rfl⟩
      obtain ⟨r', hr', hurl⟩ := hw.entry url i hi
      cases hr.symm.trans hr'
      exact absurd hurl hne
    exact htouched.congr rfl rfl
  · exact .of_eq _ _ rfl rfl

lemma mem_keys_of_head?_urls {next : RelayURL} (h : a.urls.head? = some next) :
    next ∈ a.relayMap.keys := by
  have hmem : next ∈ a.urls := mem_of_head? h
  rwa [urls, mem_insertionSort] at hmem

lemma not_mem_keys_of_head?_urls (h : a.urls.head? = none) (u : RelayURL) : u ∉ a.relayMap.keys := by
  intro hu
  have hmem : u ∈ a.urls := (mem_insertionSort _).mpr hu
  rw [head?_eq_none_iff.mp h] at hmem
  cases hmem

lemma dropRelay_eq (a : RelayActor) (url : RelayURL) :
    (a.dropRelay url).relayMap = a.relayMap.delete url ∧ (a.dropRelay url).home = a.home ∧
      (a.dropRelay url).homeURL = a.homeURL ∧ (a.dropRelay url).writer = a.writer ∧
        (a.dropRelay url).closed = a.closed := by
  unfold dropRelay
  simp only
  split
  · exact ⟨rfl, rfl, rfl, rfl, rfl⟩
  · exact ⟨rfl, rfl, rfl, rfl, rfl⟩

lemma effect_elect
    (helects : a.elects o = some url) (hopen : b.closed = false) (htouched : Retouched told True a b)
    (htold : ¬told url) : Effect a o (b.elect url) := by
  have hpublished : Retouched told False a
      (publish { b with home := some url } (some ⟨url, .connecting, none⟩) none) :=
    (htouched.mono (fun _ => id) False.elim).congr rfl rfl
  exact .elected helects hopen (hpublished.trans (retouched_setHomes (some url))) htold rfl rfl rfl

theorem effect_operate (hw : a.Wired) (o : Operation) : Effect a o (a.operate o) := by
  cases o with
  | insertRelay url token =>
    rw [operate, insertRelay]
    split
    next hclosed => exact .same (by simp [elects, hclosed])
    next hclosed =>
      rw [Bool.not_eq_true] at hclosed
      simp only
      split
      next hhome =>
        have helects : a.elects (.insertRelay url token) = some url := if_pos ⟨hclosed, hhome⟩
        exact .elected helects hclosed (.of_eq (fun _ => False) False rfl rfl) id rfl rfl rfl
      next hhome =>
        have helects : a.elects (.insertRelay url token) = none := if_neg fun h => hhome h.2
        refine .quiet helects (.of_eq (fun _ => False) True rfl rfl) rfl rfl rfl ?_
        exact fun h => ⟨h, fun _ _ => id⟩
  | removeRelay url =>
    rw [operate, removeRelay]
    split
    next h =>
      refine .same ?_
      rw [elects, if_neg]
      rintro ⟨hopen, hin, -⟩
      rcases h with h | h
      · cases h.symm.trans hopen
      · cases h.symm.trans hin
    next h =>
      rw [not_or, Bool.not_eq_true, Bool.not_eq_false] at h
      have htouched := retouched_dropRelay hw url
      obtain ⟨hmap, hhome, hstatus, hwriter, hclosed⟩ := dropRelay_eq a url
      simp only
      split
      next hne =>
        rw [hhome] at hne
        have helects : a.elects (.removeRelay url) = none := if_neg fun hc => hne hc.2.2
        refine .quiet helects htouched hhome hstatus hwriter fun ho => ⟨hclosed ▸ ho, ?_⟩
        rintro u hu rfl
        exact hne hu
      next hne =>
        rw [hhome, not_not] at hne
        have helects : a.elects (.removeRelay url) = (a.dropRelay url).urls.head? :=
          if_pos ⟨h.1, h.2, hne⟩
        split
        next hnone =>
          have hfewer := htouched.mono (fun _ => id) False.elim
          exact .unset (helects.trans hnone) (hfewer.congr rfl rfl) rfl rfl rfl
        next next hnext =>
          refine effect_elect (helects.trans hnext) (hclosed.trans h.1) htouched ?_
          rintro rfl
          have hmem := mem_keys_of_head?_urls hnext
          rw [hmap, mem_keys_delete] at hmem
          exact hmem.1 rfl
  | setHomeRelay url =>
    rw [operate]
    unfold setHomeRelay
    split
    next hclosed =>
      refine .same ?_
      cases url with
      | none => rfl
      | some url => simp [elects, hclosed]
    next hclosed =>
      cases url with
      | none =>
        have hpublished : Retouched (fun _ => False) False a
            (publish { a with home := none } none none) := .of_eq _ _ rfl rfl
        exact .unset rfl (hpublished.trans (retouched_setHomes none)) rfl rfl rfl
      | some url =>
        simp only
        split
        next hhome => exact .same (by simp [elects, hhome])
        next hhome =>
          rw [Bool.not_eq_true] at hclosed
          have helects : a.elects (.setHomeRelay (some url)) = some url := if_pos ⟨hclosed, hhome⟩
          exact effect_elect helects hclosed (.of_eq (fun _ => False) True rfl rfl) id
  | dispatch url eid =>
    rw [operate, dispatch]
    split
    · exact .same rfl
    · split
      · exact .same rfl
      · split
        · exact .same rfl
        next hactive _ =>
          have hnone : a.active.get? url = none := by
            simpa [GoMap.contains] using hactive
          rw [ensureActiveLocked, hnone]
          exact .started rfl hnone
  | shutdown =>
    refine .quiet rfl (.of_eq (fun _ => False) True rfl rfl) rfl rfl rfl fun ho => ?_
    cases ho
  | shutdownStop i =>
    rw [operate]
    split
    next hclosed =>
      have htouched : Retouched (fun _ => True) True a (a.stop i) :=
        retouched_update fun r _ => ⟨rfl, rfl, fun hnot => absurd trivial hnot, fun _ => rfl⟩
      refine .quiet rfl htouched rfl rfl rfl fun ho => ?_
      exact absurd (hclosed.symm.trans ho) (by decide)
    · exact .same rfl
  | received =>
    refine .quiet rfl (.of_eq (fun _ => False) True rfl rfl) rfl rfl rfl ?_
    exact fun h => ⟨h, fun _ _ => id⟩

lemma Wired.operate (hw : a.Wired) (o : Operation) : (a.operate o).Wired := by
  have heffect := effect_operate hw o
  generalize a.operate o = a' at heffect ⊢
  cases heffect with
  | elected _ _ htouched => exact (hw.retouched htouched).ensureActiveLocked _ _
  | unset _ htouched | quiet _ htouched => exact hw.retouched htouched
  | started _ hnone => exact hw.start hnone _

lemma Wired.step (hw : a.Wired) (action : Action) : (a.step action).Wired := by
  cases action with
  | op o => exact hw.operate o
  | relay i e => exact hw.relayEvent i e

end RelayActor

end Iroh.Socket
