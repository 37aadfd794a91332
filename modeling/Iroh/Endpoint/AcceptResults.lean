import Iroh.Common.Runs
import Iroh.Endpoint.Accept

/-!
# What accept returns

Reference: `iroh/endpoint.go` (`accept`, `finishAccept`, `Shutdown`, `acquireAcceptOwner`).

A connection that was accepted goes to one place: it is returned, kept, or closed (`Counted`).  The pulling
goroutine sends nil only if it has found an outcome in the list.  Only the call that waits for it pops
outcomes, and no other loop can take over meanwhile, but `Shutdown` empties the list: then the call finds
nothing, and returns the nil that it was sent (`good_iff_open`).
-/

namespace Iroh.Endpoint.Accepting

open List

variable {s s' : Accepting} {c c' : AcceptCall} {i : ℕ} {f : Finish}

def handed (s : Accepting) : List ℕ :=
  s.returned.filterMap (·.bind Outcome.conn?) ++ (s.accepted.filterMap Outcome.conn? ++ s.closedConns)

/-- `accept` has not returned a nil connection with a nil error, and each connection whose handshake and
hooks have succeeded was returned once, is kept, or was closed. -/
def Good (s : Accepting) : Prop :=
  none ∉ s.returned ∧ ∀ i, s.stage? i = some (.done .conn) → s.handed.count i = 1

/-- `accept` is about to pop, after the pulling goroutine has sent nil. -/
def PopsAfterNil (s : Accepting) (action : Action) : Prop :=
  action = .call .main ∧ ∃ c, s.call = some c ∧ c.main = .tookErr false

/-! ## What a step does -/

lemma stage?_setStage (s : Accepting) (i j : ℕ) (stage : FinishStage) :
    (s.setStage i stage).stage? j = if i = j then (s.stage? j).map fun _ => stage else s.stage? j := by
  rw [stage?, setStage, getElem?_modify, stage?]
  cases s.finishers[j]? with
  | none => simp
  | some f => by_cases hij : i = j <;> simp [hij]

/-- A step that returns, accepts and closes nothing. -/
structure Quiet (s s' : Accepting) : Prop where
  returned : s'.returned = s.returned
  accepted : s'.accepted = s.accepted
  closedConns : s'.closedConns = s.closedConns
  stage? : ∀ j, s'.stage? j = s.stage? j
  call : s'.call = s.call
  closed : s'.closed = s.closed
  acceptOwner : s'.acceptOwner = s.acceptOwner ∨ s.acceptOwner = .other

lemma Quiet.refl (s : Accepting) : Quiet s s := ⟨rfl, rfl, rfl, fun _ => rfl, rfl, rfl, .inl rfl⟩

lemma quiet_admitting (s : Accepting) (admitting : List (Option ℕ)) : Quiet s { s with admitting } :=
  ⟨rfl, rfl, rfl, fun _ => rfl, rfl, rfl, .inl rfl⟩

lemma quiet_abandon (s : Accepting) (admitting : List (Option ℕ)) (oldest : Option ℕ) :
    Quiet s (abandon { s with admitting } oldest) := by
  cases oldest with
  | none => exact quiet_admitting s admitting
  | some i =>
    refine ⟨rfl, rfl, rfl, fun j => ?_, rfl, rfl, .inl rfl⟩
    rw [stage?, abandon, getElem?_modify, stage?]
    cases s.finishers[j]? with
    | none => rfl
    | some f => by_cases hij : i = j <;> simp [hij]

lemma quiet_add (s : Accepting) (i : Option ℕ) : Quiet s (s.add i) := by
  unfold add
  split
  · split
    · exact quiet_abandon s _ _
    · exact quiet_admitting s _
  · exact quiet_admitting s _

inductive Effect (s : Accepting) : Action → Accepting → Prop
  | quiet {action : Action} {s' : Accepting} (h : Quiet s s') : Effect s action s'
  /-- A `finishAccept` goes on. -/
  | moved {action : Action} {s' : Accepting} {i : ℕ} {stage stage' : FinishStage} (h : Quiet s s')
      (hi : s.stage? i = some stage) (hnot : ∀ f, stage ≠ .done f) (hnot' : ∀ f, stage' ≠ .done f) :
      Effect s action (s'.setStage i stage')
  | dropped {action : Action} {s' : Accepting} {i : ℕ} {stage : FinishStage} (h : Quiet s s')
      (hi : s.stage? i = some stage) (hnot : ∀ f, stage ≠ .done f) (f : Finish) :
      Effect s action (s'.drop i f)
  | kept {i gen : ℕ} {abandoned : Bool} {f : Finish}
      (hi : s.finishers[i]? = some ⟨gen, abandoned, .released f⟩) (hopen : s.closed = false)
      (hgen : s.acceptGen = gen) : Effect s (.append i) (s.keep i f)
  /-- Another loop takes over, or the endpoint is shut down. -/
  | emptied {action : Action} {closed : Bool} {acceptOwner : AcceptOwner} {acceptGen : ℕ}
      (h : s.acceptOwner = .none ∨ closed ∧ acceptOwner = s.acceptOwner) :
      Effect s action { s.closeAccepted with closed, acceptOwner, acceptGen }
  | started {action : Action} (gen : ℕ) :
      Effect s action { s with acceptOwner := .accept, call := some ⟨gen, false, .starting, .unstarted⟩ }
  | called {c : AcceptCall} {a : CallAction} (hc : s.call = some c) : Effect s (.call a) (s.callStep c a)

lemma effect_step (s : Accepting) (action : Action) : Effect s action (s.step action) := by
  cases action with
  | start =>
    rw [step, start]
    split
    · exact .quiet (.refl s)
    · exact .started _
  | call a =>
    rw [step]
    split
    · exact .called ‹_›
    · exact .quiet (.refl s)
  | admitConn i =>
    rw [step, admitConn]
    split
    · exact .moved (quiet_add s _) ‹_› (by simp) (by simp)
    · exact .quiet (.refl s)
  | finish i f =>
    rw [step]
    split
    next hi => exact .moved (.refl s) hi (by simp) (by simp)
    · exact .quiet (.refl s)
  | release i =>
    rw [step, release]
    split
    next hi =>
      have hstage := congrArg (Option.map Finisher.stage) hi
      split
      · exact .dropped (quiet_admitting s _) hstage (by simp) _
      · exact .moved (quiet_admitting s _) hstage (by simp) (by simp)
    · exact .quiet (.refl s)
  | append i =>
    rw [step, append]
    split
    next hi =>
      split
      · exact .dropped (.refl s) (congrArg (Option.map Finisher.stage) hi) (by simp) _
      next hkept =>
        rw [not_or, Bool.not_eq_true, not_not] at hkept
        exact .kept hi hkept.1 hkept.2
    · exact .quiet (.refl s)
  | takeOver =>
    rw [step, takeOver]
    split
    · exact .quiet (.refl s)
    next h =>
      rw [not_or, not_not] at h
      exact .emptied (.inl h.2)
  | handOver =>
    rw [step]
    split
    · exact .quiet ⟨rfl, rfl, rfl, fun _ => rfl, rfl, rfl, .inr ‹_›⟩
    · exact .quiet (.refl s)
  | otherAdmit => exact .quiet (quiet_add s none)
  | otherRelease => exact .quiet (quiet_admitting s _)
  | shutdown =>
    rw [step, shutdown]
    split
    · exact .quiet (.refl s)
    · exact .emptied (.inr ⟨rfl, rfl⟩)
  | serveStop =>
    rw [step]
    split
    · exact .quiet ⟨rfl, rfl, rfl, fun _ => rfl, rfl, rfl, .inl rfl⟩
    · exact .quiet (.refl s)

/-! ## A connection goes to one place -/

/-- A connection is handed on once, when its `finishAccept` ends. -/
def Counted (s : Accepting) : Prop :=
  ∀ i, s.handed.count i = if s.stage? i = some (.done .conn) then 1 else 0

section

variable (h : s.Counted)
include h

lemma Counted.of_perm (hhanded : s'.handed.Perm s.handed)
    (hstage : ∀ i, s'.stage? i = some (.done .conn) ↔ s.stage? i = some (.done .conn)) : s'.Counted := by
  intro i
  rw [hhanded.count_eq, h i]
  simp [hstage]

lemma Counted.ends (hi : s.stage? i = some stage) (hnot : stage ≠ .done .conn)
    (hhanded : s'.handed.Perm ((f.outcome i).conn?.toList ++ s.handed))
    (hstage : ∀ j, s'.stage? j = if i = j then (s.stage? j).map fun _ => .done f else s.stage? j) :
    s'.Counted := by
  intro j
  rw [hhanded.count_eq, count_append, h j, hstage]
  by_cases hij : i = j
  · subst hij
    by_cases hf : f = .conn
    · simp [hi, hnot, hf, Finish.outcome, Outcome.conn?]
    · simp [hi, hnot, hf, Finish.outcome, Outcome.conn?]
  · by_cases hf : f = .conn
    · simp [hij, hf, Finish.outcome, Outcome.conn?]
    · simp [hij, hf, Finish.outcome, Outcome.conn?]

lemma Counted.drop (hi : s.stage? i = some stage) (hnot : stage ≠ .done .conn)
    (f : Finish) : (s.drop i f).Counted := by
  refine h.ends hi hnot ?_ (stage?_setStage _ _ · _)
  exact ((perm_append_comm_assoc _ _ _).append_left _).trans (perm_append_comm_assoc _ _ _)

lemma Counted.keep (hi : s.stage? i = some stage) (hnot : stage ≠ .done .conn)
    (f : Finish) : (s.keep i f).Counted := by
  refine h.ends hi hnot ?_ (stage?_setStage _ _ · _)
  have hkept : (s.accepted ++ [f.outcome i]).filterMap Outcome.conn? =
      s.accepted.filterMap Outcome.conn? ++ (f.outcome i).conn?.toList := by
    cases hout : (f.outcome i).conn? <;> simp [hout]
  have hhanded : (s.keep i f).handed = s.returned.filterMap (·.bind Outcome.conn?) ++
      ((s.accepted.filterMap Outcome.conn? ++ (f.outcome i).conn?.toList) ++ s.closedConns) :=
    congrArg (fun l => s.returned.filterMap (·.bind Outcome.conn?) ++ (l ++ s.closedConns)) hkept
  rw [hhanded, append_assoc]
  exact ((perm_append_comm_assoc _ _ _).append_left _).trans (perm_append_comm_assoc _ _ _)

lemma Counted.setStage (hi : s.stage? i = some stage)
    (hnot : stage ≠ .done .conn) (hnot' : stage' ≠ .done .conn) : (s.setStage i stage').Counted := by
  refine h.of_perm (.refl _) fun j => ?_
  rw [stage?_setStage]
  split
  next hij =>
    subst hij
    simp [hi, hnot, hnot']
  · rfl

lemma Counted.popped (hr : s.accepted = r :: rest) (c : AcceptCall) : (s.popped c r rest).Counted := by
  refine h.of_perm (.of_eq ?_) fun _ => .rfl
  have hreturned : (s.returned ++ [some r]).filterMap (·.bind Outcome.conn?) =
      s.returned.filterMap (·.bind Outcome.conn?) ++ r.conn?.toList := by
    cases hout : r.conn? <;> simp [hout]
  have haccepted : s.accepted.filterMap Outcome.conn? =
      r.conn?.toList ++ rest.filterMap Outcome.conn? := by
    rw [hr]
    cases hout : r.conn? <;> simp [hout]
  rw [handed, Accepting.popped, hreturned, handed, haccepted, append_assoc, append_assoc]

end

lemma Quiet.counted (h : Quiet s s') (hs : s.Counted) : s'.Counted := by
  refine hs.of_perm (.of_eq ?_) fun j => by rw [h.stage? j]
  rw [handed, handed, h.returned, h.accepted, h.closedConns]

lemma Counted.callStep (h : s.Counted) (c : AcceptCall) (a : CallAction) :
    (s.callStep c a).Counted := by
  have hreturned : ∀ {r : Option Outcome} {call : Option AcceptCall}, r.bind Outcome.conn? = none →
      Counted { s with returned := s.returned ++ [r], call } := by
    intro r call hr
    refine h.of_perm (.of_eq ?_) fun _ => .rfl
    simp [handed, hr]
  cases a with
  | main =>
    rw [Accepting.callStep]
    unfold goOn
    split
    · exact h
    · exact h.popped ‹_› _
    · exact h
    · exact h.popped ‹_› _
    · refine hreturned ?_
      split
      · rfl
      · rfl
    · exact h.popped ‹_› _
    · split
      · exact h
      · exact h
    · exact h
  | giveUp =>
    rw [Accepting.callStep]
    split
    · exact hreturned rfl
    · exact h
  | cancel => exact h
  | pull =>
    rw [Accepting.callStep]
    unfold pullOn
    split
    · exact h
    · exact h
    · exact h
  | pulled err =>
    rw [Accepting.callStep]
    unfold Accepting.pulled
    split
    · exact h
    · refine h.of_perm (.refl _) fun i => ?_
      rw [stage?, stage?, getElem?_append]
      split
      · rfl
      next hlen =>
        rw [getElem?_eq_none (Nat.le_of_not_lt hlen), getElem?_singleton]
        split
        · simp
        · rfl
    · exact h
  | _ =>
    rw [Accepting.callStep]
    split
    · exact h
    · exact h

lemma Effect.counted (h : Effect s action s') (hs : s.Counted) : s'.Counted := by
  cases h with
  | quiet h => exact h.counted hs
  | moved h hi hnot hnot' => exact (h.counted hs).setStage ((h.stage? _).trans hi) (hnot _) (hnot' _)
  | dropped h hi hnot f => exact (h.counted hs).drop ((h.stage? _).trans hi) (hnot _) f
  | kept hi => exact hs.keep (congrArg (Option.map Finisher.stage) hi) (by simp) _
  | emptied => exact hs.of_perm (.refl _) fun _ => .rfl
  | started => exact hs
  | called => exact hs.callStep _ _

/-! ## A nil connection -/

/-- A call owns the listener, and what it has found is returned or kept. -/
structure Alert (s : Accepting) : Prop where
  owned : s.call.isSome → s.acceptOwner = .accept
  emptied : s.closed → s.accepted = []
  took : ∀ c err, s.call = some c → c.main = .tookErr err → c.pull = .ended err
  found : ∀ c, s.call = some c → c.pull = .sending ∨ c.pull = .ended false →
    c.main = .returning ∨ s.closed ∨ s.accepted ≠ []

section

variable (hs : s.Alert) (hc : s.call = some c)
include hs hc

lemma Alert.of_call (hclosed : s'.closed = s.closed) (howner : s'.acceptOwner = s.acceptOwner)
    (hcall : s'.call = some c') (hempty : s.accepted = [] → s'.accepted = [])
    (htook : ∀ err, c'.main = .tookErr err → c'.pull = .ended err)
    (hfound : c'.pull = .sending ∨ c'.pull = .ended false →
      c'.main = .returning ∨ s.closed ∨ s'.accepted ≠ []) : s'.Alert := by
  refine ⟨fun _ => howner.trans (hs.owned (by simp [hc])), fun h => ?_, fun d err hd => ?_, fun d hd => ?_⟩
  · exact hempty (hs.emptied (hclosed ▸ h))
  · rw [hcall, Option.some_inj] at hd
    subst hd
    exact htook err
  · rw [hcall, Option.some_inj] at hd
    subst hd
    rw [hclosed]
    exact hfound

lemma Alert.found_of_not_returning (hmain : c.main ≠ .returning)
    (hfound : c.pull = .sending ∨ c.pull = .ended false) : s.closed ∨ s.accepted ≠ [] :=
  (hs.found c hc hfound).resolve_left hmain

lemma Alert.not_took (hp : c.pull = p) (hnot : ∀ err, p ≠ .ended err) (err : Bool) :
    c.main ≠ .tookErr err := by
  intro hmain
  exact hnot err (hp.symm.trans (hs.took c err hc hmain))

lemma Alert.popped (hr : s.accepted = r :: rest) (pull : Pull) :
    (s.popped { c with pull } r rest).Alert := by
  refine hs.of_call hc rfl rfl rfl ?_ (by simp) fun _ => .inl rfl
  simp [hr]

lemma Alert.goOn : (s.goOn c).Alert := by
  unfold Accepting.goOn
  split
  · exact hs.of_call hc rfl rfl rfl id (by simp) (by simp)
  · exact hs.popped hc ‹_› _
  next hmain _ =>
    exact hs.of_call hc rfl rfl rfl id (by simp) fun h =>
      .inr (hs.found_of_not_returning hc (by simp [hmain]) h)
  · exact hs.popped hc ‹_› _
  · exact hs.of_call hc rfl rfl rfl id (by simp) fun _ => .inl rfl
  · exact hs.popped hc ‹_› _
  · split
    · exact ⟨by simp, hs.emptied, by simp, by simp⟩
    · exact hs
  · exact hs

lemma Alert.pullOn : (s.pullOn c).Alert := by
  unfold Accepting.pullOn
  split
  next hpull =>
    refine hs.of_call hc rfl rfl rfl id (fun err h => absurd h ?_) fun h => .inr (.inr ?_)
    · exact hs.not_took hc hpull (by simp) err
    · intro hnil
      change s.accepted = [] at hnil
      simp [hnil] at h
  next hpull =>
    refine hs.of_call hc rfl rfl rfl id (fun err h => absurd h ?_) fun _ => hs.found c hc (.inl hpull)
    exact hs.not_took hc hpull (by simp) err
  · exact hs

lemma Alert.pulled (err : Bool) : (s.pulled c err).Alert := by
  unfold Accepting.pulled
  split
  next hpull =>
    exact hs.of_call hc rfl rfl rfl id (fun err h => absurd h (hs.not_took hc hpull (by simp) err))
      (by simp)
  next hpull =>
    exact hs.of_call hc rfl rfl rfl id (fun err h => absurd h (hs.not_took hc hpull (by simp) err))
      (by simp)
  · exact hs

lemma Alert.callStep (a : CallAction) : (s.callStep c a).Alert := by
  cases a with
  | main => exact hs.goOn hc
  | woken =>
    rw [Accepting.callStep]
    split
    next hwait =>
      exact hs.of_call hc rfl rfl rfl id (by simp) fun h =>
        .inr (hs.found_of_not_returning hc (by simp [hwait]) h)
    · exact hs
  | takeErr =>
    rw [Accepting.callStep]
    split
    next hmain hpull =>
      exact hs.of_call hc rfl rfl rfl id (by simp [hpull]) fun h =>
        .inr (hs.found_of_not_returning hc (by simp [hmain]) h)
    · exact hs
  | giveUp =>
    rw [Accepting.callStep]
    split
    · exact hs.of_call hc rfl rfl rfl id (by simp) fun _ => .inl rfl
    · exact hs
  | cancel => exact hs.of_call hc rfl rfl rfl id (hs.took c · hc) (hs.found c hc)
  | pull => exact hs.pullOn hc
  | pulled err => exact hs.pulled hc err

end

lemma Quiet.alert (h : Quiet s s') (hs : s.Alert) : s'.Alert := by
  constructor
  · rw [h.call]
    intro hcall
    have howned := hs.owned hcall
    rcases h.acceptOwner with heq | hother
    · rw [heq]
      exact howned
    · cases hother.symm.trans howned
  · rw [h.closed, h.accepted]
    exact hs.emptied
  · rw [h.call]
    exact hs.took
  · rw [h.call, h.closed, h.accepted]
    exact hs.found

lemma Effect.alert (h : Effect s action s') (hs : s.Alert) : s'.Alert := by
  cases h with
  | quiet h => exact h.alert hs
  | moved h | dropped h =>
    have h' := h.alert hs
    exact ⟨h'.owned, h'.emptied, h'.took, h'.found⟩
  | kept _ hopen =>
    refine ⟨hs.owned, fun hclosed => ?_, hs.took, fun _ _ _ => .inr (.inr ?_)⟩
    · rw [keep, hopen] at hclosed
      cases hclosed
    · simp [keep, setStage]
  | emptied h =>
    rcases h with hnone | ⟨hclosed, heq⟩
    · have hcall : s.call = none :=
        Option.not_isSome_iff_eq_none.mp fun hcall => by simp [hs.owned hcall] at hnone
      exact ⟨by simp [closeAccepted, hcall], fun _ => rfl, by simp [closeAccepted, hcall],
        by simp [closeAccepted, hcall]⟩
    · exact ⟨fun hcall => heq.trans (hs.owned hcall), fun _ => rfl, hs.took, fun _ _ _ => .inr (.inl hclosed)⟩
  | started gen =>
    refine ⟨fun _ => rfl, hs.emptied, ?_, ?_⟩
    · rintro _ _ ⟨⟩ hmain
      cases hmain
    · rintro _ ⟨⟩ hpull
      simp at hpull
  | called hc => exact hs.callStep hc _

lemma mem_returned_callStep (s : Accepting) (c : AcceptCall) (a : CallAction) :
    none ∈ (s.callStep c a).returned ↔
      none ∈ s.returned ∨ a = .main ∧ c.main = .tookErr false ∧ s.accepted = [] := by
  cases a with
  | main =>
    rw [callStep]
    unfold goOn
    split
    · simp_all
    · simp_all [popped]
    · simp_all
    · simp_all [popped]
    next err hmain hnil => cases err <;> simp [hmain, hnil]
    · simp_all [popped]
    · split <;> simp_all
    · simp_all
  | cancel => simp [callStep]
  | pull => rw [callStep]; unfold pullOn; split <;> simp
  | pulled err => rw [callStep]; unfold pulled; split <;> simp
  | _ => rw [callStep]; split <;> simp

lemma Effect.returned (h : Effect s action s') (hcall : ∀ a, action ≠ .call a) :
    s'.returned = s.returned := by
  cases h with
  | quiet h | moved h | dropped h => exact h.returned
  | called => exact absurd rfl (hcall _)
  | _ => rfl

lemma mem_returned_step (hs : s.Alert) (action : Action) :
    none ∈ (s.step action).returned ↔ none ∈ s.returned ∨ s.PopsAfterNil action ∧ s.closed = true := by
  by_cases haction : ∃ a, action = .call a
  · obtain ⟨a, rfl⟩ := haction
    rw [step]
    split
    next c hc =>
      rw [mem_returned_callStep]
      refine or_congr_right ⟨?_, ?_⟩
      · rintro ⟨rfl, hmain, hnil⟩
        refine ⟨⟨rfl, c, hc, hmain⟩, ?_⟩
        have hpull := hs.took c false hc hmain
        exact (hs.found_of_not_returning hc (by simp [hmain]) (.inr hpull)).resolve_right (not_not.mpr hnil)
      · rintro ⟨⟨ha, d, hd, hmain⟩, hclosed⟩
        cases ha
        cases hc.symm.trans hd
        exact ⟨rfl, hmain, hs.emptied hclosed⟩
    next hc => simp [PopsAfterNil, hc]
  · rw [(effect_step s action).returned (not_exists.mp haction), iff_self_or]
    exact fun h => absurd ⟨_, h.1.1⟩ haction

/-- **Whether `accept` returns a connection or an error, and drops nothing.**  In every run it does exactly
when, each time `accept` pops after its pulling goroutine has sent nil, the endpoint has not been shut down.
-/
theorem good_iff_open (maxAdmitting : ℕ) (actions : List Action) :
    EachState step Good (new maxAdmitting) actions ↔
      EachStep step (fun s action => s.PopsAfterNil action → s.closed = false) (new maxAdmitting)
        actions := by
  refine eachState_iff_of_inv (fun s => s.Counted ∧ s.Alert) ?_ ?_ ?_ ?_ actions
  · exact fun s action h => ⟨(effect_step s action).counted h.1, (effect_step s action).alert h.2⟩
  · intro s action h hgood
    have hcounted : ∀ i, (s.step action).stage? i = some (.done .conn) →
        (s.step action).handed.count i = 1 := fun i hi =>
          ((effect_step s action).counted h.1 i).trans (if_pos hi)
    rw [Good, and_iff_left hcounted, mem_returned_step h.2, or_iff_right hgood.1, not_and,
      Bool.not_eq_true]
  · exact ⟨fun i => rfl, by simp [new], fun _ => rfl, by simp [new], by simp [new]⟩
  · exact ⟨by simp [new], by simp [new, stage?]⟩

/-- **A connection is handed on once**, shut down or not, and not before its `finishAccept` ends. -/
theorem handed_on_once (maxAdmitting : ℕ) (actions : List Action) :
    EachState step Counted (new maxAdmitting) actions :=
  eachState_of_inv Counted (fun s action h => (effect_step s action).counted h) (fun _ => rfl) actions

/-- The pulling goroutine finds the outcome of a handshake, and sends nil.  The endpoint is shut down, and
the `select` takes the nil. -/
def shutDownBeforePop : List Action :=
  [.start, .call .main, .call .main, .call .pull, .call (.pulled false), .admitConn 0, .finish 0 .conn,
    .release 0, .append 0, .call .pull, .call .pull, .shutdown, .call .takeErr, .call .main]

theorem nil_connection_without_error : ¬EachState step Good (new 1) shutDownBeforePop := by
  intro h
  exact (h shutDownBeforePop prefix_rfl).1 (by decide)

end Iroh.Endpoint.Accepting
